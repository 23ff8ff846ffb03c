import Docstring.Proofs.Canonical
import Docstring.Proofs.Entries

/-!
# Merging within sections

A merge within sections puts the descendant's prose below the ancestor's and writes its items over
the ancestor's. No header comes from the items (`ItemMap.Sound`), and one from the prose only where
a row of hyphens meets a row above it (`Dialect.Seamless`). Where none does, the merged docstring is
read section by section as it was merged, and can be merged again (`Document.Sound`,
`Fit.exists_docs`).
-/

namespace Docstring

open Text

variable {d : Dialect} {form : HeaderForm} {k : Section} {m s t x y : Text}

namespace Text

/-- The rows of two texts, one below the other. -/
theorem rows_append_newline (s t : Text) : rows (s ++ '\n' :: t) = rows s ++ rows t := by
  have hn : ∀ l ∈ rows s ++ rows t, '\n' ∉ l := fun l hl =>
    (List.mem_append.1 hl).elim newline_notMem_of_mem_rows newline_notMem_of_mem_rows
  rw [← rows_joinLines (by simp) hn, joinLines_append (rows_ne_nil s) (rows_ne_nil t),
    joinLines_rows, joinLines_rows]

end Text

/-! ### Prose below prose -/

/-- Whether two texts form no header where they meet, one below the other. -/
def Dialect.Seamless (d : Dialect) (s t : Text) : Prop :=
  ∀ l ∈ (rows s).getLast?, d.matchHeader l (rows t).head? = none

instance (d : Dialect) (s t : Text) : Decidable (d.Seamless s t) :=
  inferInstanceAs (Decidable (∀ l ∈ (rows s).getLast?, d.matchHeader l (rows t).head? = none))

/-- Prose as a section has it: tidy rows without a header, up to the last visible character. -/
structure Passage (d : Dialect) (t : Text) : Prop where
  /-- The rows are tidy. -/
  tidy : ∀ r ∈ rows t, Tidy r
  /-- There is no header in them. -/
  free : d.HeaderFree (rows t)
  /-- They are read as the text. -/
  trimmed : Body.proseOf (rows t) = some t

namespace Passage

theorem visible (h : Passage d t) : isBlank t = false := Body.isBlank_of_proseOf h.trimmed

/-- **Passages that form no header where they meet make a passage.** -/
theorem append (hs : Passage d s) (ht : Passage d t) (hseam : d.Seamless s t) :
    Passage d (s ++ '\n' :: t) where
  tidy r hr := by
    rw [rows_append_newline] at hr
    exact (List.mem_append.1 hr).elim (hs.tidy r) (ht.tidy r)
  free := by
    rw [rows_append_newline]
    exact hs.free.append ht.free hseam
  trimmed := by
    obtain ⟨hne, htrim⟩ := Body.proseOf_eq_some_iff.1 ht.trimmed
    rw [joinLines_rows] at htrim
    refine Body.proseOf_eq_some_iff.2 ⟨by simp, ?_⟩
    rw [joinLines_rows, eq_comm, trimEnd_eq_self_iff]
    intro c hc
    obtain ⟨e, he⟩ := Option.isSome_iff_exists.1 (List.getLast?_isSome.2 hne)
    rw [List.getLast?_append, List.getLast?_cons, he] at hc
    obtain rfl : e = c := by simpa using hc
    exact trimEnd_eq_self_iff.1 htrim.symm e he

/-- Under headers without an underline the rows that meet never matter. -/
theorem seamless_of_colon (hd : d.headerForm = some .colon) (h : Passage d s) (t : Text) :
    d.Seamless s t := by
  intro l hl
  have hnone := h.free.matchHeader_none (List.mem_of_getLast? hl)
  rw [Dialect.matchHeader_eq hd] at hnone ⊢
  exact hnone

end Passage

namespace Document

variable {p q : Document}

theorem Read.passage (h : Read d p) (hk : k ∈ d.sections) (hi : k.hasItems = false)
    (ht : p.text? k = some t) : Passage d t := by
  have hplain := h.2 k hk
  rw [h.bodyAt_eq_text hk hi, ht] at hplain
  exact ⟨(hplain.tidy rfl).1, (hplain.prose hi).1, (hplain.prose hi).2⟩

theorem Read.hasContent_of_text (h : Read d p) (hk : k ∈ d.sections) (hi : k.hasItems = false) :
    p.hasContent k = (p.text? k).isSome := by
  rw [h.hasContent hk, h.bodyAt_eq_text hk hi]
  cases p.text? k <;> rfl

theorem Read.hasContent_iff_entries_ne_nil (h : Read d p) (hk : k ∈ d.sections)
    (hi : k.hasItems = true) :
    p.hasContent k = true ↔ ((p.items? k).getD OrderedMap.empty).entries ≠ [] := by
  rw [h.hasContent hk, h.bodyAt_eq_items hk hi]
  simp [Body.isEmpty, OrderedMap.isEmpty]

/-- A document that can be merged within its sections: its summary starts at column zero, and its
items can be written over others. -/
structure Sound (d : Dialect) (p : Document) : Prop where
  /-- The summary is read as it stands. -/
  summary : ∀ t, p.text? .shortSummary = some t → lead (rows t) = rows t
  /-- The items are sound. -/
  items : ∀ k ∈ d.sections, k.hasItems = true →
    ItemMap.Sound d ((p.items? k).getD OrderedMap.empty)

/-- Whether two documents form no header in a section where their prose meets. -/
def Seamless (d : Dialect) (p q : Document) : Prop :=
  ∀ k ∈ d.sections, k.hasItems = false → k ∉ d.unmergeable →
    ∀ s ∈ p.text? k, ∀ t ∈ q.text? k, d.Seamless s t

instance (d : Dialect) (p q : Document) : Decidable (Seamless d p q) :=
  inferInstanceAs (Decidable (∀ k ∈ d.sections, k.hasItems = false → k ∉ d.unmergeable →
    ∀ s ∈ p.text? k, ∀ t ∈ q.text? k, d.Seamless s t))

end Document

namespace Merge

open Document

variable {p q r : Document}

theorem Canonical.sound (hx : Canonical d x) (hd : d.headerForm = some form) :
    Sound d (parse d (some x)) := by
  have hread := read_parse hd x
  have hmem := shortSummary_mem_sections hd
  refine ⟨fun t ht => ?_, fun k hk hi => ?_⟩
  · have hsteady := (hx.steady hd _ hmem).2 t
    rw [hread.bodyAt_eq_text hmem rfl, ht] at hsteady
    exact (hsteady rfl).2.2 rfl
  · have hsteady := (hx.steady hd k hk).2
    have hplain := hread.2 k hk
    rw [hread.bodyAt_eq_items hk hi] at hsteady hplain
    generalize ((parse d (some x)).items? k).getD OrderedMap.empty = n at hsteady hplain ⊢
    by_cases hne : n.entries = []
    · exact ItemMap.sound_of_entries_eq_nil hne
    · have hrender : (Body.items n).render? d = some (n.render d) :=
        Body.render?_items_of_ne_nil hne
      obtain ⟨hlines, hfree, -⟩ := hsteady _ hrender
      have hparse : ItemMap.parseBody (Body.proseOf (rows (n.render d))) = n := by
        simpa [Body.ofLines, hi] using hlines
      rw [← hparse]
      exact ItemMap.sound_of_parseBody (hplain.tidy hrender).1 fun _ => by rwa [hparse]

/-! ### What is taken of the ancestor -/

theorem text?_withoutStaleRaises (hp : Read d p) (hk : k ∈ d.sections)
    (hi : k.hasItems = false) (hs : k ≠ .raises) (q : Document) :
    (withoutStaleRaises p q).text? k = p.text? k := by
  have hread := read_withoutStaleRaises hp q
  have hbody := bodyAt_withoutStaleRaises hs p q
  rw [hread.bodyAt_eq_text hk hi, hp.bodyAt_eq_text hk hi] at hbody
  exact Body.text.inj hbody

/-- Raises are taken of the ancestor unless they are stale. -/
theorem text?_raises_withoutStaleRaises (hp : Read d p) (hk : .raises ∈ d.sections)
    (q : Document) : (withoutStaleRaises p q).text? .raises =
      if produces q && !produces p then none else p.text? .raises := by
  have hi : Section.raises.hasItems = false := rfl
  rw [withoutStaleRaises, raisesIsStale, hp.hasContent_of_text hk hi]
  cases hnone : p.text? .raises with
  | none => simp [hnone]
  | some t =>
    have hclear := bodyAt_clear p .raises .raises
    rw [(hp.clear .raises).bodyAt_eq_text hk hi, if_pos rfl] at hclear
    have hcleared : (p.clear .raises).text? .raises = none := Body.text.inj hclear
    cases produces p <;> cases produces q <;> simp [hnone, hcleared]

theorem sound_withoutStaleRaises (h : Sound d p) (hp : Read d p)
    (hd : d.headerForm = some form) (q : Document) : Sound d (withoutStaleRaises p q) := by
  have hmem := shortSummary_mem_sections hd
  refine ⟨fun t ht => h.summary t ?_, fun k hk hi => ?_⟩
  · rwa [text?_withoutStaleRaises hp hmem rfl (by decide)] at ht
  · have hread := read_withoutStaleRaises hp q
    have hs : k ≠ .raises := fun hr => by simp [hr, Section.hasItems] at hi
    have hbody := bodyAt_withoutStaleRaises hs p q
    rw [hread.bodyAt_eq_items hk hi, hp.bodyAt_eq_items hk hi] at hbody
    rw [Body.items.inj hbody]
    exact h.items k hk hi

/-! ### What sections merge to -/

theorem prose_none_left (within : Bool) (b : Option Text) : prose within none b = b := by
  cases b <;> rfl

theorem prose_none_right (within : Bool) (a : Option Text) : prose within a none = a := by
  cases a <;> rfl

/-- The prose of both sides is a passage where it meets without a header. -/
theorem passage_prose (hp : Read d p) (hq : Read d q) (hseam : Seamless d p q)
    (hk : k ∈ d.sections) (hi : k.hasItems = false)
    (ht : prose (mergesWithin d .mergeWithin k) (p.text? k) (q.text? k) = some t) :
    Passage d t := by
  cases hqk : q.text? k with
  | none =>
    rw [hqk, prose_none_right] at ht
    exact hp.passage hk hi ht
  | some b =>
    cases hpk : p.text? k with
    | none =>
      rw [hpk, prose_none_left] at ht
      exact hq.passage hk hi ht
    | some a =>
      rw [hpk, hqk, prose] at ht
      obtain rfl := Option.some.inj ht
      split
      · next hwithin =>
        have hmem : k ∉ d.unmergeable := by simpa [mergesWithin] using hwithin
        exact (hp.passage hk hi hpk).append (hq.passage hk hi hqk) (hseam k hk hi hmem a hpk b hqk)
      · exact hq.passage hk hi hqk

theorem sound_items (hp : Sound d p) (hq : Sound d q) (hk : k ∈ d.sections)
    (hi : k.hasItems = true) (within : Bool) : ItemMap.Sound d (items within k p q) :=
  ItemMap.sound_merge (hp.items k hk hi) (hq.items k hk hi) within

/-- What is written of merged sections is tidy, shows something and holds no header. -/
theorem written_merged (hp : Read d p) (hq : Read d q) (hps : Sound d p) (hqs : Sound d q)
    (hseam : Seamless d p q) (hk : k ∈ d.sections)
    (ht : (merged d .mergeWithin p q k).render? d = some t) :
    ((∀ r ∈ rows t, Tidy r) ∧ isBlank t = false) ∧ d.HeaderFree (rows t) := by
  rw [merged] at ht
  split at ht
  · next hi =>
    have hsound := sound_items hps hqs hk hi (mergesWithin d .mergeWithin k)
    rw [Body.render?] at ht
    split at ht
    · simp at ht
    · next hne =>
      obtain rfl := Option.some.inj ht
      have hne := fun he => hne (List.isEmpty_iff.2 he)
      exact ⟨hsound.tidy_rows_render hne, hsound.headerFree_rows_render hne⟩
  · next hi =>
    have hpassage := passage_prose hp hq hseam hk (by simpa using hi) ht
    exact ⟨⟨hpassage.tidy, hpassage.visible⟩, hpassage.free⟩

/-- The summary is never merged within. -/
theorem mergesWithin_shortSummary (hd : d.headerForm = some form) :
    mergesWithin d .mergeWithin .shortSummary = false := by
  cases d <;> simp [Dialect.headerForm] at hd <;> decide

theorem ne_shortSummary (hd : d.headerForm = some form) (hu : k ∉ d.unmergeable) :
    k ≠ .shortSummary := by
  rintro rfl
  have hwithin := mergesWithin_shortSummary hd
  simp [mergesWithin, hu] at hwithin

theorem summary_merged (hps : Sound d p) (hqs : Sound d q) (hd : d.headerForm = some form)
    (ht : prose (mergesWithin d .mergeWithin .shortSummary) (p.text? .shortSummary)
      (q.text? .shortSummary) = some t) : lead (rows t) = rows t := by
  rw [mergesWithin_shortSummary hd] at ht
  cases hq : q.text? .shortSummary with
  | none =>
    rw [hq, prose_none_right] at ht
    exact hps.summary t ht
  | some b =>
    refine hqs.summary t ?_
    rw [hq] at ht ⊢
    generalize p.text? .shortSummary = a at ht
    cases a <;> exact ht

/-- What the descendant has is written. -/
theorem exists_render?_merged (hq : Read d q) (hk : k ∈ d.sections) (hc : q.hasContent k = true)
    (p : Document) : ∃ t, (merged d .mergeWithin p q k).render? d = some t := by
  rw [merged]
  cases hi : k.hasItems with
  | false =>
    rw [hq.hasContent_of_text hk hi] at hc
    obtain ⟨t, ht⟩ := Option.isSome_iff_exists.1 hc
    rw [ht]
    cases p.text? k
    · exact ⟨_, rfl⟩
    · exact ⟨_, rfl⟩
  | true =>
    have hne := (hq.hasContent_iff_entries_ne_nil hk hi).1 hc
    exact ⟨_, Body.render?_items_of_ne_nil (ItemMap.entries_merge_ne_nil hne _ _)⟩

/-- Whether a section under a header without an underline has another one beside it, or a row that
starts at column zero: it has no margin to lose. -/
def Anchored (d : Dialect) (k : Section) (q : Document) : Prop :=
  d.headerForm = some .colon →
    (∃ j ∈ d.sections, j ≠ k ∧ q.hasContent j = true) ∨ ∀ t ∈ q.text? k, margin (rows t) = 0

/-- Prose keeps a row at column zero. -/
theorem margin_prose {within : Bool} {a : Option Text} (hb : Passage d s)
    (h0 : margin (rows s) = 0) (ht : prose within a (some s) = some t) : margin (rows t) = 0 := by
  cases a with
  | none =>
    rw [prose_none_left] at ht
    exact Option.some.inj ht ▸ h0
  | some a =>
    rw [prose] at ht
    obtain rfl := Option.some.inj ht
    split
    · have hvisible := hb.visible
      rw [← joinLines_rows s] at hvisible
      rw [rows_append_newline]
      exact margin_append_of_right _ h0 (exists_visible_of_isBlank hvisible)
    · exact h0

/-! ### Reading what was merged -/

section Reading

variable (hp : Read d p) (hq : Read d q) (hps : Sound d p) (hqs : Sound d q)
  (hseam : Seamless d p q) (hd : d.headerForm = some form)
  (hm : compose d (merged d .mergeWithin p q) = some m)
include hp hq hps hqs hseam hd hm

/-- Beside an anchored section no margin is lost. -/
theorem margin_compose_merged (hk : k ∈ d.sections) (hi : k.hasItems = false)
    (hs : k ≠ .shortSummary) (hb : q.text? k = some t) (ha : Anchored d k q) :
    margin (rows m).tail = 0 := by
  have hf : Legible d (merged d .mergeWithin p q) := fun j hj r hr =>
    (written_merged hp hq hps hqs hseam hj hr).1
  have hc : q.hasContent k = true := by rw [hq.hasContent_of_text hk hi, hb]; rfl
  obtain ⟨r, hr⟩ := exists_render?_merged hq hk hc p
  by_contra h0
  rcases written_of_margin hd hm h0 hk hr with ⟨rfl, -⟩ | ⟨-, rfl, ho, hw⟩
  · exact hs rfl
  -- a margin is lost only where a single section is written, and this one starts at column zero
  · rcases ha hd with ⟨j, hj, hne, hjc⟩ | hflush
    · obtain ⟨u, hu⟩ := exists_render?_merged hq hj hjc p
      exact hne (eq_of_margin hd hm h0 hj hu hk hr)
    · rw [(get?_parse_single hf hd hk hk hm ho hw).1] at h0
      rw [merged, hi, hb] at hr
      exact h0 (margin_prose (hq.passage hk hi hb) (hflush t hb) hr)

variable (h0 : margin (rows m).tail = 0)
include h0

/-- Merged sections are read from the rows in which they are written. -/
theorem get?_parse_merged (hk : k ∈ d.sections) :
    (parse d (some m)).get? k = some ((((merged d .mergeWithin p q k).render? d).map
      fun t => Body.ofLines k (rows t)).getD (Body.empty k)) := by
  have hwritten := fun j (hj : j ∈ d.sections) t => written_merged (t := t) hp hq hps hqs hseam hj
  exact get?_parse_compose_of_headerFree (fun j hj t ht => (hwritten j hj t ht).1)
    (fun j hj t ht => (hwritten j hj t ht).2) (fun t ht => summary_merged hps hqs hd ht) hd hk hm h0

/-- **Prose is read as it was merged.** -/
theorem text?_parse_merged (hk : k ∈ d.sections) (hi : k.hasItems = false) :
    (parse d (some m)).text? k =
      prose (mergesWithin d .mergeWithin k) (p.text? k) (q.text? k) := by
  have hget := get?_parse_merged hp hq hps hqs hseam hd hm h0 hk
  have hrender : (merged d .mergeWithin p q k).render? d =
      prose (mergesWithin d .mergeWithin k) (p.text? k) (q.text? k) := by
    rw [merged, hi]
    rfl
  rw [hrender] at hget
  rw [text?, hget]
  cases ht : prose (mergesWithin d .mergeWithin k) (p.text? k) (q.text? k) with
  | none => simp [Body.empty, hi]
  | some t =>
    have hpassage := passage_prose hp hq hseam hk hi ht
    simp [Body.ofLines, hi, hpassage.trimmed]

/-- **Items are read as sound ones**, where there are any. -/
theorem items?_parse_merged (hk : k ∈ d.sections) (hi : k.hasItems = true) :
    ∃ n, (parse d (some m)).items? k = some n ∧ ItemMap.Sound d n ∧
      ((items (mergesWithin d .mergeWithin k) k p q).entries ≠ [] → n.entries ≠ []) := by
  have hget := get?_parse_merged hp hq hps hqs hseam hd hm h0 hk
  have hsound := sound_items hps hqs hk hi (mergesWithin d .mergeWithin k)
  rw [merged, hi, if_pos rfl] at hget
  generalize items (mergesWithin d .mergeWithin k) k p q = n at hget hsound
  by_cases hne : n.entries = []
  · have hnone : (Body.items n).render? d = none := by simp [Body.render?, OrderedMap.isEmpty, hne]
    rw [hnone] at hget
    refine ⟨OrderedMap.empty, ?_, ItemMap.sound_of_entries_eq_nil rfl, fun h => absurd hne h⟩
    rw [items?, hget]
    simp [Body.empty, hi]
  · rw [Body.render?_items_of_ne_nil hne] at hget
    obtain ⟨hagain, hsome⟩ := hsound.parseBody_render hne
    refine ⟨_, ?_, hagain, fun _ => hsome⟩
    rw [items?, hget]
    simp [Body.ofLines, hi]

theorem sound_parse_merged : Sound d (parse d (some m)) := by
  have hmem := shortSummary_mem_sections hd
  refine ⟨fun t ht => ?_, fun k hk hi => ?_⟩
  · rw [text?_parse_merged hp hq hps hqs hseam hd hm h0 hmem rfl] at ht
    exact summary_merged hps hqs hd ht
  · obtain ⟨n, hn, hsound, -⟩ := items?_parse_merged hp hq hps hqs hseam hd hm h0 hk hi
    rw [hn]
    exact hsound

/-- What the descendant has is not lost. -/
theorem hasContent_parse_merged (hk : k ∈ d.sections) (hc : q.hasContent k = true) :
    (parse d (some m)).hasContent k = true := by
  have hread := read_parse hd m
  cases hi : k.hasItems with
  | false =>
    rw [hq.hasContent_of_text hk hi] at hc
    obtain ⟨t, ht⟩ := Option.isSome_iff_exists.1 hc
    rw [hread.hasContent_of_text hk hi, text?_parse_merged hp hq hps hqs hseam hd hm h0 hk hi, ht]
    cases p.text? k <;> rfl
  | true =>
    obtain ⟨n, hn, -, hsome⟩ := items?_parse_merged hp hq hps hqs hseam hd hm h0 hk hi
    rw [hread.hasContent_iff_entries_ne_nil hk hi, hn]
    exact hsome (ItemMap.entries_merge_ne_nil ((hq.hasContent_iff_entries_ne_nil hk hi).1 hc) _ _)

theorem anchored_parse_merged (hk : k ∈ d.sections) (hi : k.hasItems = false)
    (hb : q.text? k = some t) (ha : Anchored d k q) : Anchored d k (parse d (some m)) := by
  intro hcolon
  refine (ha hcolon).imp ?_ fun hflush r hr => ?_
  · rintro ⟨j, hj, hne, hc⟩
    exact ⟨j, hj, hne, hasContent_parse_merged hp hq hps hqs hseam hd hm h0 hj hc⟩
  · rw [text?_parse_merged hp hq hps hqs hseam hd hm h0 hk hi, hb] at hr
    exact margin_prose (hq.passage hk hi hb) (hflush t hb) hr

end Reading

/-- **Beside prose of the descendant, sound documents are composed to a sound one**, with their
prose as it was merged. -/
theorem exists_compose_merged (hp : Read d p) (hq : Read d q) (hps : Sound d p) (hqs : Sound d q)
    (hseam : Seamless d p q) (hd : d.headerForm = some form) (hk : k ∈ d.sections)
    (hi : k.hasItems = false) (hu : k ∉ d.unmergeable) (hb : q.text? k = some t)
    (ha : Anchored d k q) :
    ∃ m, compose d (merged d .mergeWithin p q) = some m ∧ Sound d (parse d (some m)) ∧
      Anchored d k (parse d (some m)) ∧ ∀ j ∈ d.sections, j.hasItems = false →
        (parse d (some m)).text? j =
          prose (mergesWithin d .mergeWithin j) (p.text? j) (q.text? j) := by
  have hc : q.hasContent k = true := by rw [hq.hasContent_of_text hk hi, hb]; rfl
  obtain ⟨r, hr⟩ := exists_render?_merged hq hk hc p
  obtain ⟨m, hm⟩ := exists_compose hk hr
  have h0 := margin_compose_merged hp hq hps hqs hseam hd hm hk hi (ne_shortSummary hd hu) hb ha
  exact ⟨m, hm, sound_parse_merged hp hq hps hqs hseam hd hm h0,
    anchored_parse_merged hp hq hps hqs hseam hd hm h0 hk hi hb ha,
    fun j hj hi => text?_parse_merged hp hq hps hqs hseam hd hm h0 hj hi⟩

/-! ### Merging docstrings -/

/-- A docstring that can be merged within its sections, with the prose of one section. -/
structure Fit (d : Dialect) (k : Section) (x t : Text) : Prop where
  /-- It can be merged with others. -/
  sound : Sound d (parse d (some x))
  /-- The section has no margin to lose. -/
  anchored : Anchored d k (parse d (some x))
  /-- The section has the text. -/
  text : (parse d (some x)).text? k = some t

/-- One block is written where one section has something to write. -/
theorem written_eq_singleton {f : Section → Body} {ks : List Section} (hn : ks.Nodup)
    (hk : k ∈ ks) (h : ∀ j ∈ ks, j ≠ k → (f j).render? d = none) (ht : (f k).render? d = some t) :
    written d form f ks = [⟨k, heading form k, rows t ++ [[]]⟩] := by
  obtain ⟨above, below, rfl⟩ := List.append_of_mem hk
  have hnil : ∀ js : List Section, (∀ j ∈ js, (f j).render? d = none) →
      written d form f js = [] := fun js hjs =>
    List.filterMap_eq_nil_iff.2 fun j hj => by rw [hjs j hj]; rfl
  have hne := List.nodup_append.1 hn
  have habove := hnil above fun j hj =>
    h j (List.mem_append_left _ hj) (hne.2.2 j hj k List.mem_cons_self)
  have hbelow := hnil below fun j hj => h j (by simp [hj]) fun he =>
    (List.nodup_cons.1 hne.2.1).1 (he ▸ hj)
  rw [written_append, habove, List.nil_append, written, List.filterMap_cons, ht, ← written, hbelow]
  rfl

theorem Canonical.anchored (hx : Canonical d x) (hd : d.headerForm = some form)
    (hk : k ∈ d.sections) (hi : k.hasItems = false) (hs : k ≠ .shortSummary) :
    Anchored d k (parse d (some x)) := by
  intro hcolon
  have hread := read_parse hd x
  have hm := ((canonical_iff hd).1 hx).2
  have hf : Legible d (parse d (some x)).bodyAt := fun j hj r hr => (hread.2 j hj).tidy hr
  by_cases hother : ∃ j ∈ d.sections, j ≠ k ∧ (parse d (some x)).hasContent j = true
  · exact .inl hother
  -- the docstring is this section alone, and would not be read as itself if it had a margin
  · refine .inr fun t ht => ?_
    have hbody : (parse d (some x)).bodyAt k = .text (some t) := by
      rw [hread.bodyAt_eq_text hk hi, ht]
    have hnone : ∀ j ∈ d.sections, j ≠ k → ((parse d (some x)).bodyAt j).render? d = none := by
      intro j hj hne
      rw [Body.render?_eq_none_iff, ← Bool.not_eq_false, ← Bool.not_eq_true', ← hread.hasContent hj]
      exact fun hc => hother ⟨j, hj, hne, hc⟩
    have hopening : opening d (parse d (some x)).bodyAt = [] := by
      rw [opening, hnone _ (shortSummary_mem_sections hd) (Ne.symm hs)]
    have hrender : ((parse d (some x)).bodyAt k).render? d = some t := by rw [hbody]; rfl
    have hwritten : written d .colon (parse d (some x)).bodyAt d.sections.tail =
        [⟨k, heading .colon k, rows t ++ [[]]⟩] :=
      written_eq_singleton d.sections_nodup.tail (mem_tail_of_ne hd hk hs)
        (fun j hj => hnone j (List.mem_of_mem_tail hj)) hrender
    rw [← (get?_parse_single hf hcolon hk hk hm hopening hwritten).1]
    by_contra h0
    refine get?_parse_ne_of_margin hf hd hk hi hbody hm h0 ?_
    rw [hread.get? hk, hbody]

/-- **A canonical docstring can be merged within its sections.** -/
theorem Canonical.fit (hx : Canonical d x) (hd : d.headerForm = some form) (hk : k ∈ d.sections)
    (hi : k.hasItems = false) (hs : k ≠ .shortSummary)
    (ht : (parse d (some x)).text? k = some t) : Fit d k x t :=
  ⟨hx.sound hd, hx.anchored hd hk hi hs, ht⟩

/-- A docstring with prose is not blank. -/
theorem Fit.isBlank_eq (h : Fit d k x t) : isBlank x = false := by
  rw [← Bool.not_eq_true]
  intro hb
  have hempty : parse d (some x) = empty d := parse_of_isBlankDoc hb
  have htext := h.text
  rw [hempty, text?_empty] at htext
  simp at htext

/-- **Docstrings that meet without a header are merged within their sections**: the ancestor's prose
stands above the descendant's, and the result can be merged again. -/
theorem Fit.exists_docs (hx : Fit d k x s) (hy : Fit d k y t)
    (hseam : Seamless d (withoutStaleRaises (parse d (some x)) (parse d (some y)))
      (parse d (some y)))
    (hd : d.headerForm = some form) (hk : k ∈ d.sections) (hi : k.hasItems = false)
    (hs : k ≠ .raises) (hu : k ∉ d.unmergeable) :
    ∃ m, docs d .mergeWithin none (some x) (some y) = some m ∧ Fit d k m (s ++ '\n' :: t) ∧
      ∀ j ∈ d.sections, j.hasItems = false → (parse d (some m)).text? j =
        prose (mergesWithin d .mergeWithin j)
          ((withoutStaleRaises (parse d (some x)) (parse d (some y))).text? j)
          ((parse d (some y)).text? j) := by
  have hp := read_parse hd x
  have hq := read_parse hd y
  obtain ⟨m, hm, hsound, hanchored, htext⟩ := exists_compose_merged
    (read_withoutStaleRaises hp _) hq (sound_withoutStaleRaises hx.sound hp hd _) hy.sound
    hseam hd hk hi hu hy.text hy.anchored
  refine ⟨m, (docs_eq_compose_merged hd .mergeWithin hx.isBlank_eq hy.isBlank_eq).trans hm,
    ⟨hsound, hanchored, ?_⟩, htext⟩
  rw [htext k hk hi, text?_withoutStaleRaises hp hk hi hs, hx.text, hy.text, prose,
    if_pos (by simp [mergesWithin, hu])]

end Merge

end Docstring
