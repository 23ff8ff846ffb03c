import Docstring.Proofs.Reading
import Docstring.Proofs.Items

/-!
# Bodies as they are written

A body is written as a text, prose as it is and items one below the other. Where it was read from
tidy rows, its text is made of tidy rows again, and of no more of them (`length_rows_le`). So a
body that is read from its own rows has no header among them (`headerFree_of_reading`): a header
would leave fewer rows to the section than the body takes.
-/

namespace Docstring

open Text

variable {d : Dialect} {k : Section} {ls : List Line} {t : Text}

namespace Body

/-! ### Prose -/

theorem proseOf_eq_some_iff : proseOf ls = some t ↔ t ≠ [] ∧ t = trimEnd (joinLines ls) := by
  rw [proseOf]
  cases h : trimEnd (joinLines ls) with
  | nil => simp
  | cons c s =>
    constructor
    · intro h'
      obtain rfl := Option.some.inj h'
      exact ⟨List.cons_ne_nil c s, rfl⟩
    · rintro ⟨-, rfl⟩
      rfl

theorem proseOf_eq_none_iff : proseOf ls = none ↔ dropEndWhile isBlank ls = [] := by
  rw [dropEndWhile_eq_nil_iff, ← List.all_eq_true, ← isBlank_joinLines, ← trimEnd_eq_nil_iff,
    proseOf]
  cases trimEnd (joinLines ls) <;> simp

theorem isBlank_of_proseOf (h : proseOf ls = some t) : isBlank t = false := by
  obtain ⟨hne, ht⟩ := proseOf_eq_some_iff.1 h
  rwa [ht, isBlank_trimEnd, ← Bool.not_eq_true, ← trimEnd_eq_nil_iff, ← ht]

/-- Prose ends with something that shows. -/
theorem getLast?_of_proseOf {ls : List Line} (h : proseOf ls = some t) :
    t.getLast? ≠ some '\n' := by
  obtain ⟨-, rfl⟩ := proseOf_eq_some_iff.1 h
  intro hlast
  exact absurd (getLast?_dropEndWhile hlast) (by decide)

/-- Prose is the prose of its own rows. -/
theorem proseOf_rows (h : proseOf ls = some t) : proseOf (rows t) = some t := by
  obtain ⟨hne, ht⟩ := proseOf_eq_some_iff.1 h
  refine proseOf_eq_some_iff.2 ⟨hne, ?_⟩
  rw [joinLines_rows, ht, trimEnd_trimEnd]

/-- The rows of prose that is made of tidy rows are those rows. -/
theorem rows_of_proseOf (h : ∀ l ∈ ls, Tidy l) (hp : proseOf ls = some t) :
    rows t = dropEndWhile isBlank ls := by
  obtain ⟨hne, ht⟩ := proseOf_eq_some_iff.1 hp
  rw [trimEnd_joinLines h] at ht
  have hls : dropEndWhile isBlank ls ≠ [] := by
    intro he
    rw [he, joinLines_nil] at ht
    exact hne ht
  rw [ht]
  exact rows_joinLines hls fun l hl => (h l ((dropEndWhile_prefix_self _ ls).mem hl)).no_break

theorem weight_rows_le_of_proseOf (hp : proseOf ls = some t) : weight (rows t) ≤ weight ls := by
  obtain ⟨hne, ht⟩ := proseOf_eq_some_iff.1 hp
  have hls : ls ≠ [] := by
    rintro rfl
    exact hne ht
  have hlen := length_dropEndWhile_le isSpace (joinLines ls)
  rw [weight_rows, weight_eq hls, ht]
  exact Nat.succ_le_succ hlen

/-! ### Writing -/

/-- A body as it is written, if there is anything to write. -/
def render? (d : Dialect) : Body → Option Text
  | .text t => t
  | .items m => if m.isEmpty then none else some (m.render d)

theorem ofLines_nil (k : Section) : ofLines k [] = empty k := by
  cases k <;> rfl

/-- A section that lists items has items, and any other has prose. -/
theorem shape_ofLines (k : Section) (ls : List Line) :
    if k.hasItems then ∃ m, ofLines k ls = .items m else ∃ t, ofLines k ls = .text t := by
  rw [ofLines]
  split
  · exact ⟨_, rfl⟩
  · exact ⟨_, rfl⟩

/-- There is nothing to write of an empty body alone. -/
theorem render?_eq_none_iff {b : Body} : b.render? d = none ↔ b.isEmpty = true := by
  cases b with
  | text t => simp [render?, isEmpty]
  | items m => simp [render?, isEmpty]

theorem render?_items_of_ne_nil {m : ItemMap} (h : m.entries ≠ []) :
    (Body.items m).render? d = some (m.render d) :=
  if_neg fun he => h (List.isEmpty_iff.1 he)

theorem entries_ne_nil_of_render? {m : ItemMap} (h : (Body.items m).render? d = some t) :
    m.entries ≠ [] := by
  intro hnil
  rw [render?, OrderedMap.isEmpty, hnil] at h
  simp at h

theorem isEmpty_ofLines_iff : (ofLines k ls).isEmpty = true ↔ ofLines k ls = empty k := by
  rw [ofLines, empty]
  split
  · simp [isEmpty, OrderedMap.isEmpty_iff]
  · simp [isEmpty]

theorem render?_ofLines_of_text (hk : k.hasItems = false) :
    (ofLines k ls).render? d = proseOf ls := by
  simp [ofLines, render?, hk]

theorem exists_of_render?_ofLines (hk : k.hasItems = true)
    (h : (ofLines k ls).render? d = some t) :
    ∃ s, proseOf ls = some s ∧ (ItemMap.parse s).entries ≠ [] ∧
      t = (ItemMap.parse s).render d := by
  simp only [ofLines, hk, if_true, render?] at h
  cases hp : proseOf ls with
  | none => simp [hp, ItemMap.parseBody, OrderedMap.isEmpty] at h
  | some s =>
    simp only [hp, ItemMap.parseBody, OrderedMap.isEmpty] at h
    split at h
    · simp at h
    · next hne => exact ⟨s, rfl, fun he => hne (by simp [he]), (Option.some.inj h).symm⟩

/-- The visible rows that make up prose. -/
theorem exists_rows_of_proseOf (h : ∀ l ∈ ls, Tidy l) (hp : proseOf ls = some t) :
    ∃ ms, t = joinLines ms ∧ (∀ l ∈ ms, Tidy l) ∧ ms.getLast? ≠ some [] ∧
      ms.length ≤ ls.length := by
  refine ⟨dropEndWhile isBlank ls, ?_, fun l hl => h l ((dropEndWhile_prefix_self _ ls).mem hl), ?_,
    length_dropEndWhile_le _ ls⟩
  · rw [← rows_of_proseOf h hp, joinLines_rows]
  · intro hlast
    exact absurd (getLast?_dropEndWhile hlast) (by simp)

/-- A body that was read from tidy rows is written in tidy rows, with something to see. -/
theorem tidy_rows_render? (h : ∀ l ∈ ls, Tidy l) (ht : (ofLines k ls).render? d = some t) :
    (∀ r ∈ rows t, Tidy r) ∧ isBlank t = false := by
  cases hk : k.hasItems with
  | false =>
    rw [render?_ofLines_of_text hk] at ht
    refine ⟨fun r hr => ?_, isBlank_of_proseOf ht⟩
    rw [rows_of_proseOf h ht] at hr
    exact h r ((dropEndWhile_prefix_self _ ls).mem hr)
  | true =>
    obtain ⟨s, hs, hne, rfl⟩ := exists_of_render?_ofLines hk ht
    obtain ⟨ms, rfl, hms, hlast, -⟩ := exists_rows_of_proseOf h hs
    exact ⟨ItemMap.tidy_rows_render d hne fun e he => (ItemMap.tidy_rows_parse hms hlast he).2,
      ItemMap.isBlank_render d hne fun e he => (ItemMap.tidy_rows_parse hms hlast he).1⟩

/-- **A body is written in no more rows than it was read from.** -/
theorem length_rows_le (h : ∀ l ∈ ls, Tidy l) (ht : (ofLines k ls).render? d = some t) :
    (rows t).length ≤ ls.length := by
  cases hk : k.hasItems with
  | false =>
    rw [render?_ofLines_of_text hk] at ht
    rw [rows_of_proseOf h ht]
    exact length_dropEndWhile_le _ ls
  | true =>
    obtain ⟨s, hs, hne, rfl⟩ := exists_of_render?_ofLines hk ht
    obtain ⟨ms, rfl, hms, hlast, hlen⟩ := exists_rows_of_proseOf h hs
    exact (ItemMap.length_rows_render_le d hms hlast hne).trans hlen

/-- The items of tidy rows are those of the visible ones without their margin. -/
theorem parseBody_proseOf (h : ∀ l ∈ ls, Tidy l) :
    ItemMap.parseBody (proseOf ls) = OrderedMap.ofList (Item.ofLines
      (trimBlankLines ((dropEndWhile isBlank ls).map (strip (margin ls))))) := by
  cases hp : proseOf ls with
  | none =>
    rw [proseOf_eq_none_iff.1 hp]
    rfl
  | some s =>
    have hrows := rows_of_proseOf h hp
    have htidy : ∀ l ∈ dropEndWhile isBlank ls, Tidy l :=
      fun l hl => h l ((dropEndWhile_prefix_self _ ls).mem hl)
    have hlast : (dropEndWhile isBlank ls).getLast? ≠ some [] := by
      intro hlast
      exact absurd (getLast?_dropEndWhile hlast) (by simp)
    rw [ItemMap.parseBody, ItemMap.parse, ← joinLines_rows s, hrows,
      ItemMap.dedentedLines_joinLines htidy hlast, margin_dropEndWhile]

/-- Items are the same with their margin and without. -/
theorem ofLines_map_strip (hk : k.hasItems = true) (h : ∀ l ∈ ls, Tidy l) :
    ofLines k (ls.map (strip (margin ls))) = ofLines k ls := by
  have htidy : ∀ l ∈ ls.map (strip (margin ls)), Tidy l := by
    intro l hl
    obtain ⟨m, hm, rfl⟩ := List.mem_map.1 hl
    exact (h m hm).of_suffix (strip_suffix _ m)
  simp only [ofLines, hk, if_true]
  rw [parseBody_proseOf htidy, parseBody_proseOf h, dropEndWhile_map_strip, margin_map_strip,
    map_strip_zero]

end Body

namespace Block

/-! ### Blocks read from their own rows -/

variable {b : Block}

theorem exists_last?_spread (b : Block) : ∃ ms, last? b.kind (b.spread d) = some ms := by
  rw [← Option.ne_none_iff_exists']
  intro hnone
  exact last?_eq_none_iff.1 hnone _ List.mem_cons_self rfl

theorem exists_of_reading_spread (b : Block) :
    ∃ c ∈ b.spread d, reading b.kind (b.spread d) = Body.ofLines b.kind c.body := by
  obtain ⟨ms, hms⟩ := exists_last?_spread (d := d) b
  obtain ⟨c, hc, -, rfl⟩ := exists_mem_of_last? hms
  exact ⟨c, hc, by rw [reading, hms]; rfl⟩

theorem reading_append (k : Section) (bs cs : List Block) :
    reading k (bs ++ cs) = ((last? k cs).map (Body.ofLines k)).getD (reading k bs) := by
  rw [reading, reading, last?_append, Option.map_or]
  cases last? k cs <;> rfl

/-- What stands in front of a block of a section makes no difference to the section. -/
theorem reading_append_spread (bs : List Block) (hk : b.kind = k) :
    reading k (bs ++ b.spread d) = reading k (b.spread d) := by
  subst hk
  obtain ⟨ms, hms⟩ := exists_last?_spread (d := d) b
  rw [reading_append, reading.eq_1 b.kind (b.spread d), hms]
  rfl

/-- **A body that is read from as many rows as it is written in has no header among them.** -/
theorem headerFree_of_reading (h : ∀ l ∈ b.body, Tidy l)
    (ht : (reading b.kind (b.spread d)).render? d = some t)
    (hlen : b.body.length ≤ (Text.rows t).length) : d.HeaderFree b.body := by
  by_contra hfree
  obtain ⟨c, hc, hread⟩ := exists_of_reading_spread (d := d) b
  have htidy : ∀ l ∈ c.body, Tidy l := fun l hl => h l ((body_sublist_of_mem_spread hc).mem hl)
  rw [hread] at ht
  have hle := Body.length_rows_le htidy ht
  have hlt := length_lt_of_mem_spread hfree hc
  omega

theorem reading_spread_of_headerFree (h : d.HeaderFree b.body) :
    reading b.kind (b.spread d) = Body.ofLines b.kind b.body := by
  rw [spread_of_headerFree h]
  simp [reading, last?]

/-- Prose holds no more than the block that it is read from. -/
theorem weight_le_of_reading (hk : b.kind.hasItems = false)
    (ht : reading b.kind (b.spread d) = .text (some t)) : weight (Text.rows t) ≤ weight b.body := by
  obtain ⟨c, hc, hread⟩ := exists_of_reading_spread (d := d) b
  have hp : Body.proseOf c.body = some t := by
    rw [hread] at ht
    simpa [Body.ofLines, hk] using ht
  exact (Body.weight_rows_le_of_proseOf hp).trans
    (weight_le_of_sublist (body_sublist_of_mem_spread hc))

end Block

end Docstring
