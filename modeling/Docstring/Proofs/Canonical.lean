import Docstring.Proofs.Replacement

/-!
# Canonical docstrings

A docstring is canonical that a merge with itself leaves alone. Each section of such a docstring
is read again from its own rows (`steady_of_composed`): a header among them would take rows away
from it. So composing sections of canonical docstrings and reading the result gives the sections
back, the result of a merge of canonical docstrings is canonical (`Canonical.merge`), and a whole
chain of ancestors can be merged one after the other without any section being lost or changed
(`get?_parse_fold`).
-/

namespace Docstring

open Text

variable {d : Dialect} {form : HeaderForm} {f : Section → Body} {k : Section} {a b m t x : Text}

/-! ### Steady bodies -/

/-- A body that is read again from its own rows, below its header or, in the case of the summary,
at the start of the docstring. -/
def Body.Steady (d : Dialect) (k : Section) (b : Body) : Prop :=
  (b.render? d = none → b = Body.empty k) ∧
    ∀ t, b.render? d = some t →
      Body.ofLines k (rows t) = b ∧ d.HeaderFree (rows t) ∧
        (k = .shortSummary → lead (rows t) = rows t)

theorem Body.Steady.empty (d : Dialect) (k : Section) : Body.Steady d k (Body.empty k) := by
  have hnone : (Body.empty k).render? d = none := by
    cases k <;> rfl
  exact ⟨fun _ => rfl, fun t ht => by rw [hnone] at ht; simp at ht⟩

/-- The rows under the header of a section. -/
theorem last?_written (ks : List Section) :
    Block.last? k (written d form f ks) =
      if k ∈ ks then ((f k).render? d).map fun t => rows t ++ [[]] else none := by
  induction ks with
  | nil => rfl
  | cons j ks ih =>
    rw [written, List.filterMap_cons]
    by_cases hj : j = k
    · subst hj
      cases hr : (f j).render? d with
      | none =>
        simp only [Option.map_none]
        rw [← written, ih, hr]
        simp
      | some t =>
        simp only [Option.map_some]
        rw [Block.last?, ← written, ih, hr]
        by_cases hmem : j ∈ ks <;> simp [hmem]
    · have hmem : (k ∈ j :: ks) = (k ∈ ks) := by simp [Ne.symm hj]
      cases hr : (f j).render? d with
      | none =>
        simp only [Option.map_none, hmem]
        exact ih
      | some t =>
        simp only [Option.map_some, hmem]
        rw [Block.last?, ← written, ih, if_neg hj, Option.or_none]

/-- Blocks without a header in their rows are read as they are written. -/
theorem flatMap_spread_written {ks : List Section}
    (h : ∀ k ∈ ks, ∀ t, (f k).render? d = some t → d.HeaderFree (rows t)) :
    (written d form f ks).flatMap (Block.spread d) = written d form f ks := by
  have hspread : ∀ b ∈ written d form f ks, b.spread d = [b] := by
    intro b hb
    obtain ⟨k, hk, t, ht, rfl⟩ := mem_written hb
    exact Block.spread_of_headerFree (h k hk t ht).append_nil
  rw [List.flatMap_congr hspread, List.flatMap_singleton']

/-- **Rows without a header are read under the section that they are written in**, where the rows
of the docstring after the first have no margin. -/
theorem get?_parse_compose_of_headerFree (hf : Legible d f)
    (hfree : ∀ k ∈ d.sections, ∀ t, (f k).render? d = some t → d.HeaderFree (rows t))
    (hsummary : ∀ t, (f .shortSummary).render? d = some t → lead (rows t) = rows t)
    (hd : d.headerForm = some form) (hk : k ∈ d.sections) (hm : compose d f = some m)
    (h0 : margin (rows m).tail = 0) :
    (Document.parse d (some m)).get? k =
      some ((((f k).render? d).map fun t => Body.ofLines k (rows t)).getD (Body.empty k)) := by
  have hmem := shortSummary_mem_sections hd
  have hlead : lead (opening d f) = opening d f ∧ d.HeaderFree (opening d f) := by
    rw [opening]
    cases hr : (f .shortSummary).render? d with
    | none => exact ⟨rfl, trivial⟩
    | some t =>
      have hb := (hf _ hmem t hr).2
      rw [← joinLines_rows t] at hb
      exact ⟨by simp only [lead_append (exists_visible_of_isBlank hb), hsummary t hr],
        (hfree _ hmem t hr).append_nil⟩
  have hread := get?_parse_compose hf hd hk hm h0
  rw [hlead.1, flatMap_spread_written fun j hj => hfree j (List.mem_of_mem_tail hj),
    Block.spread_of_headerFree hlead.2] at hread
  rw [hread, List.singleton_append, Block.reading, Block.last?, last?_written]
  congr 1
  by_cases hks : k = .shortSummary
  · subst hks
    rw [if_neg (shortSummary_notMem_tail d), Option.none_or, Block.summary, if_pos rfl, opening]
    cases hr : (f .shortSummary).render? d with
    | none => rfl
    | some t => exact Body.ofLines_append_of_isBlank _ _ rfl
  · rw [if_pos (mem_tail_of_ne hd hk hks), Block.summary, if_neg (Ne.symm hks), Option.or_none]
    cases hr : (f k).render? d with
    | none => rfl
    | some t => exact Body.ofLines_append_of_isBlank _ _ rfl

/-- **Steady bodies are read again from the docstring that they compose**, where its rows after the
first have no margin. -/
theorem get?_parse_compose_of_steady (hf : Legible d f)
    (hs : ∀ k ∈ d.sections, Body.Steady d k (f k)) (hd : d.headerForm = some form)
    (hk : k ∈ d.sections) (hm : compose d f = some m) (h0 : margin (rows m).tail = 0) :
    (Document.parse d (some m)).get? k = some (f k) := by
  have hmem := shortSummary_mem_sections hd
  rw [get?_parse_compose_of_headerFree hf (fun j hj t ht => ((hs j hj).2 t ht).2.1)
    (fun t ht => ((hs _ hmem).2 t ht).2.2 rfl) hd hk hm h0]
  congr 1
  cases hr : (f k).render? d with
  | none => exact ((hs k hk).1 hr).symm
  | some t => exact ((hs k hk).2 t hr).1

/-! ### Bodies that are read from what they compose -/

/-- A body that is read from its own rows is read from all of them. -/
theorem ofLines_rows_of_reading (h : ∀ r ∈ rows t, Tidy r) (header : Line) {b : Body}
    (hread : Block.reading k (Block.spread d ⟨k, header, rows t⟩) = b)
    (ht : b.render? d = some t) : d.HeaderFree (rows t) ∧ Body.ofLines k (rows t) = b := by
  have hfree : d.HeaderFree (rows t) :=
    Block.headerFree_of_reading (b := ⟨k, header, rows t⟩) h (hread.symm ▸ ht) (Nat.le_refl _)
  have hlines := Block.reading_spread_of_headerFree (b := ⟨k, header, rows t⟩) hfree
  exact ⟨hfree, hlines.symm.trans hread⟩

/-- **Below each header the body is read from its own rows**, where every section is read from
what all of them compose. The last block holds no header, for that would take rows away from its
section; so the one above it is read from its own rows as well, and so on upwards. -/
theorem ofLines_rows_of_composed {ks : List Section} (hn : ks.Nodup) (above : List Block)
    (hf : ∀ k ∈ ks, ∀ t, (f k).render? d = some t → ∀ r ∈ rows t, Tidy r)
    (hread : ∀ k ∈ ks,
      Block.reading k (above ++ (written d form f ks).flatMap (Block.spread d)) = f k) :
    ∀ k ∈ ks, ∀ t, (f k).render? d = some t →
      d.HeaderFree (rows t) ∧ Body.ofLines k (rows t) = f k := by
  induction ks using List.reverseRecOn with
  | nil => simp
  | append_singleton ks k ih =>
    have hk : k ∉ ks := fun hk => (List.nodup_append.1 hn).2.2 k hk k (by simp) rfl
    -- what the last section is read from
    have hown : ∀ t, (f k).render? d = some t →
        d.HeaderFree (rows t) ∧ Body.ofLines k (rows t) = f k := by
      intro t ht
      have hlast : written d form f [k] = [⟨k, heading form k, rows t ++ [[]]⟩] := by
        rw [written, List.filterMap_cons, ht]
        rfl
      have hk' := hread k (by simp)
      rw [written_append, hlast, List.flatMap_append, List.flatMap_singleton, ← List.append_assoc,
        Block.reading_append_spread (k := k) (b := ⟨k, heading form k, rows t ++ [[]]⟩) _ rfl,
        Block.reading_spread_append d ⟨k, heading form k, rows t⟩ k rfl] at hk'
      exact ofLines_rows_of_reading (hf k (by simp) t ht) _ hk' ht
    -- the others are read as without it
    have habove : ∀ j ∈ ks,
        Block.reading j (above ++ (written d form f ks).flatMap (Block.spread d)) = f j := by
      intro j hj
      have hne : j ≠ k := fun he => hk (he ▸ hj)
      have hspread : (written d form f [k]).flatMap (Block.spread d) = written d form f [k] := by
        refine flatMap_spread_written fun i hi t ht => ?_
        obtain rfl := List.mem_singleton.1 hi
        exact (hown t ht).1
      have hj' := hread j (List.mem_append_left [k] hj)
      rw [written_append, List.flatMap_append, ← List.append_assoc, Block.reading_append, hspread,
        last?_written, if_neg (by simpa using hne)] at hj'
      exact hj'
    have hks := ih (List.nodup_append.1 hn).1
      (fun j hj => hf j (List.mem_append_left [k] hj)) habove
    intro j hj t ht
    rcases List.mem_append.1 hj with hj | hj
    · exact hks j hj t ht
    · obtain rfl := List.mem_singleton.1 hj
      exact hown t ht

/-- The summary is read from its own rows, where every section is read from what all of them
compose. -/
theorem lead_rows_of_composed (hf : Legible d f)
    (hplain : Body.Plain d .shortSummary (f .shortSummary))
    (hk : .shortSummary ∈ d.sections) (ht : (f .shortSummary).render? d = some t)
    (hread : Block.reading .shortSummary ((Block.summary (lead (opening d f))).spread d) =
      f .shortSummary) :
    d.HeaderFree (rows t) ∧ Body.ofLines .shortSummary (rows t) = f .shortSummary ∧
      lead (rows t) = rows t := by
  obtain ⟨htidy, hb⟩ := hf _ hk t ht
  have hvisible := hb
  rw [← joinLines_rows t] at hvisible
  have htext : f .shortSummary = .text (some t) := by
    obtain ⟨s, hs⟩ := hplain.exists_text rfl
    rw [hs] at ht ⊢
    exact congrArg Body.text ht
  rw [opening, ht] at hread
  simp only [lead_append (exists_visible_of_isBlank hvisible)] at hread
  have hread := (Block.reading_spread_append d (Block.summary (lead (rows t))) .shortSummary
    (l := []) rfl).symm.trans hread
  have hle : weight (rows t) ≤ weight (lead (rows t)) :=
    Block.weight_le_of_reading (b := Block.summary (lead (rows t))) rfl (hread.trans htext)
  have hne : t ≠ [] := fun he => by simp [he] at hb
  rcases lead_rows_cases hne with ⟨-, hlead⟩ | ⟨-, hlt⟩
  · rw [hlead] at hread
    obtain ⟨hfree, hlines⟩ := ofLines_rows_of_reading htidy [] hread ht
    exact ⟨hfree, hlines, hlead⟩
  · omega

/-- A section that is read from a docstring with a margin lists items, and its rows hold no header,
for that would leave no margin. -/
theorem ofLines_rows_of_margin (hf : Legible d f) (hplain : Body.Plain d k (f k))
    (hd : d.headerForm = some form) (hk : k ∈ d.sections) (ht : (f k).render? d = some t)
    (hm : compose d f = some m) (hread : (Document.parse d (some m)).get? k = some (f k))
    (h0 : margin (rows m).tail ≠ 0) :
    k ≠ .shortSummary ∧ d.HeaderFree (rows t) ∧ Body.ofLines k (rows t) = f k := by
  have hi : k.hasItems = true := by
    by_contra hi
    rw [Bool.not_eq_true] at hi
    obtain ⟨s, hs⟩ := hplain.exists_text hi
    obtain rfl : s = some t := by
      rw [hs] at ht
      exact ht
    exact get?_parse_ne_of_margin hf hd hk hi hs hm h0 (hread.trans (by rw [hs]))
  rcases written_of_margin hd hm h0 hk ht with ⟨rfl, -⟩ | ⟨hs, rfl, ho, hw⟩
  · exact absurd hi (by decide)
  · have htidy : ∀ r ∈ rows t, Tidy r := (hf k hk t ht).1
    obtain ⟨htail, hparse⟩ := get?_parse_single hf hd hk hk hm ho hw
    rw [hread] at hparse
    have hstripped := (Option.some.inj hparse).symm
    have hfree : d.HeaderFree ((rows t).map (strip (margin (rows t)))) := by
      refine Block.headerFree_of_reading
        (b := ⟨k, heading .colon k, (rows t).map (strip (margin (rows t)))⟩) (t := t) ?_
        (hstripped.symm ▸ ht) (by simp)
      intro r hr
      obtain ⟨l, hl, rfl⟩ := List.mem_map.1 hr
      exact (htidy l hl).of_suffix (strip_suffix _ l)
    have hlines := Block.reading_spread_of_headerFree
      (b := ⟨k, heading .colon k, (rows t).map (strip (margin (rows t)))⟩) hfree
    refine ⟨hs, Dialect.headerFree_of_margin (htail ▸ h0), ?_⟩
    rw [← Body.ofLines_map_strip hi htidy]
    exact hlines.symm.trans hstripped

/-- **Each section is steady that is read from what all of them compose.** -/
theorem steady_of_composed (hplain : ∀ k ∈ d.sections, Body.Plain d k (f k))
    (hd : d.headerForm = some form) (hm : compose d f = some m)
    (hread : ∀ k ∈ d.sections, (Document.parse d (some m)).get? k = some (f k)) :
    ∀ k ∈ d.sections, Body.Steady d k (f k) := by
  have hf : Legible d f := fun k hk t ht => (hplain k hk).tidy ht
  intro k hk
  refine ⟨fun hnone => (hplain k hk).eq_empty (Body.render?_eq_none_iff.1 hnone),
    fun t ht => ?_⟩
  by_cases h0 : margin (rows m).tail = 0
  · have hget : ∀ j ∈ d.sections, Block.reading j ((Block.summary (lead (opening d f))).spread d ++
        (written d form f d.sections.tail).flatMap (Block.spread d)) = f j := by
      intro j hj
      have hj' := get?_parse_compose hf hd hj hm h0
      rw [hread j hj] at hj'
      exact (Option.some.inj hj').symm
    have hbelow := ofLines_rows_of_composed d.sections_nodup.tail _
      (fun j hj s hs => (hf j (List.mem_of_mem_tail hj) s hs).1)
      fun j hj => hget j (List.mem_of_mem_tail hj)
    by_cases hs : k = .shortSummary
    · subst hs
      have hsummary := hget _ hk
      rw [flatMap_spread_written fun j hj s hjs => (hbelow j hj s hjs).1, Block.reading_append,
        last?_written, if_neg (shortSummary_notMem_tail d)] at hsummary
      obtain ⟨hfree, hlines, hlead⟩ :=
        lead_rows_of_composed hf (hplain _ hk) hk ht hsummary
      exact ⟨hlines, hfree, fun _ => hlead⟩
    · obtain ⟨hfree, hlines⟩ := hbelow k (mem_tail_of_ne hd hk hs) t ht
      exact ⟨hlines, hfree, fun he => absurd he hs⟩
  · obtain ⟨hs, hfree, hlines⟩ :=
      ofLines_rows_of_margin hf (hplain k hk) hd hk ht hm (hread k hk) h0
    exact ⟨hlines, hfree, fun he => absurd he hs⟩

/-! ### Canonical docstrings -/

namespace Merge

open Document

/-- A docstring that a merge with itself leaves alone. -/
def Canonical (d : Dialect) (x : Text) : Prop :=
  docs d .replace none (some x) (some x) = some x

instance (d : Dialect) (x : Text) : Decidable (Canonical d x) :=
  inferInstanceAs (Decidable (_ = _))

/-- Beside itself a document keeps what it raises. -/
theorem supersede_self (p : Document) : supersede p p = p.bodyAt := by
  have hstale : raisesIsStale p p = false := by
    rw [raisesIsStale]
    cases produces p <;> simp
  funext k
  rw [supersede, withoutStaleRaises, hstale]
  split <;> rfl

/-- What the descendant has is taken. -/
theorem supersede_of_render? {p q : Document} (hq : Read d q) (hk : k ∈ d.sections)
    (ht : (q.bodyAt k).render? d = some t) : supersede p q k = q.bodyAt k := by
  have hcontent : q.hasContent k = true := by
    rw [hq.hasContent hk, Bool.not_eq_true', ← Bool.not_eq_true, ← Body.render?_eq_none_iff, ht]
    simp
  rw [supersede, if_pos hcontent]

theorem canonical_iff (hd : d.headerForm = some form) :
    Canonical d x ↔ isBlank x = false ∧ compose d (parse d (some x)).bodyAt = some x := by
  cases hx : isBlank x with
  | true =>
    rw [Canonical, docs_of_blank (by simpa [isBlankDoc] using hx) (by simpa [isBlankDoc] using hx)]
    simp
  | false => simp [Canonical, docs_eq_compose hd hx hx, supersede_self]

namespace Canonical

/-- The sections of a canonical docstring are steady. -/
theorem steady (h : Canonical d x) (hd : d.headerForm = some form) :
    ∀ k ∈ d.sections, Body.Steady d k ((parse d (some x)).bodyAt k) := by
  have hread := read_parse hd x
  exact steady_of_composed hread.2 hd ((canonical_iff hd).1 h).2 fun k hk => hread.get? hk

/-- A canonical docstring has a section. -/
theorem exists_render? (h : Canonical d x) (hd : d.headerForm = some form) :
    ∃ k ∈ d.sections, ∃ t, ((parse d (some x)).bodyAt k).render? d = some t := by
  have hcompose := ((canonical_iff hd).1 h).2
  by_contra hnone
  have hnil : (d.sections.filterMap fun k =>
      (((parse d (some x)).bodyAt k).render? d).map (d.renderHeader k ++ ·)) = [] := by
    rw [List.filterMap_eq_nil_iff]
    intro k hk
    rw [Option.map_eq_none_iff, Option.eq_none_iff_forall_ne_some]
    exact fun t ht => hnone ⟨k, hk, t, ht⟩
  rw [compose, hnil] at hcompose
  simp [joinSections] at hcompose

theorem steady_supersede (ha : Canonical d a) (hb : Canonical d b)
    (hd : d.headerForm = some form) (hk : k ∈ d.sections) :
    Body.Steady d k (supersede (parse d (some a)) (parse d (some b)) k) := by
  rw [supersede]
  split
  · exact hb.steady hd k hk
  · rw [withoutStaleRaises]
    split
    · rw [bodyAt_clear]
      split
      · exact Body.Steady.empty d k
      · exact ha.steady hd k hk
    · exact ha.steady hd k hk

/-- Where a single section is written and the descendant has it, the merge is the descendant. -/
theorem supersede_eq_of_margin (hb : Canonical d b) (hd : d.headerForm = some form)
    (hm : compose d (supersede (parse d (some a)) (parse d (some b))) = some m)
    (h0 : margin (rows m).tail ≠ 0) :
    ∀ k ∈ d.sections,
      supersede (parse d (some a)) (parse d (some b)) k = (parse d (some b)).bodyAt k := by
  have hreadb := read_parse hd b
  obtain ⟨j, hj, s, hs⟩ := hb.exists_render? hd
  have htaken := supersede_of_render? (p := parse d (some a)) hreadb hj hs
  intro k hk
  by_cases hkj : k = j
  · rw [hkj, htaken]
  · -- no other section is written, so both sides are empty
    have hplain := plain_supersede (read_parse hd a) hreadb hk
    have hnone : (supersede (parse d (some a)) (parse d (some b)) k).render? d = none := by
      rw [Option.eq_none_iff_forall_ne_some]
      intro t ht
      exact hkj (eq_of_margin hd hm h0 hk ht hj (by rw [htaken]; exact hs))
    have hempty := hplain.eq_empty (Body.render?_eq_none_iff.1 hnone)
    rw [supersede] at hempty hnone ⊢
    split at hempty
    · next hcontent => rw [if_pos hcontent]
    · next hcontent =>
      rw [if_neg hcontent, hempty]
      rw [hreadb.hasContent hk, Bool.not_eq_true', Bool.not_eq_false] at hcontent
      exact ((hreadb.2 k hk).eq_empty hcontent).symm

/-- **Canonical docstrings merge to a canonical docstring**, in which each section holds what the
merge took for it. -/
theorem merge (ha : Canonical d a) (hb : Canonical d b) (hd : d.headerForm = some form) :
    ∃ m, docs d .replace none (some a) (some b) = some m ∧ Canonical d m ∧
      ∀ k ∈ d.sections, (parse d (some m)).bodyAt k =
        supersede (parse d (some a)) (parse d (some b)) k := by
  obtain ⟨hblanka, -⟩ := (canonical_iff hd).1 ha
  obtain ⟨hblankb, hcomposeb⟩ := (canonical_iff hd).1 hb
  have hread := read_parse hd b
  have hf := legible_supersede (read_parse hd a) hread
  obtain ⟨j, hj, s, hs⟩ := hb.exists_render? hd
  have htaken := supersede_of_render? (p := parse d (some a)) hread hj hs
  obtain ⟨m, hm⟩ := exists_compose (f := supersede (parse d (some a)) (parse d (some b)))
    hj (by rw [htaken]; exact hs)
  have hget : ∀ k ∈ d.sections, (parse d (some m)).bodyAt k =
      supersede (parse d (some a)) (parse d (some b)) k := by
    intro k hk
    by_cases h0 : margin (rows m).tail = 0
    · rw [bodyAt, get?_parse_compose_of_steady hf
        (fun i hi => ha.steady_supersede hb hd hi) hd hk hm h0]
      rfl
    · have hsame := hb.supersede_eq_of_margin hd hm h0
      have hmb : m = b := by
        rw [compose, List.filterMap_congr fun i hi => by rw [hsame i hi], ← compose,
          hcomposeb] at hm
        exact (Option.some.inj hm).symm
      rw [hsame k hk, hmb]
  refine ⟨m, (docs_eq_compose hd hblanka hblankb).trans hm, (canonical_iff hd).2 ⟨?_, ?_⟩, hget⟩
  · obtain ⟨l, hl, hb⟩ := exists_visible_compose hf hd hm
    rw [← joinLines_rows m, isBlank_joinLines, List.all_eq_false]
    exact ⟨l, hl, by simp [hb]⟩
  · rw [compose, List.filterMap_congr fun i hi => by rw [hget i hi], ← compose, hm]

end Canonical

/-! ### Chains of ancestors -/

/-- A docstring with those of its ancestors merged into it one after the other, nearest first. -/
def fold (d : Dialect) (doc : Text) (ancestors : List Text) : Option Text :=
  ancestors.foldl (fun acc a => docs d .replace none (some a) acc) (some doc)

/-- The body of a section in the first document that has content there, empty where none has. -/
def firstBody (k : Section) (ps : List Document) : Body :=
  ((ps.find? fun p => p.hasContent k).map fun p => p.bodyAt k).getD (Body.empty k)

/-- The documents whose raises stand: those that tell what a call gives back, and those that no
earlier document does that for. -/
def standing (earlier : List Document) : List Document → List Document
  | [] => []
  | p :: ps =>
    if produces p || !earlier.any produces then p :: standing (earlier ++ [p]) ps
    else standing (earlier ++ [p]) ps

theorem firstBody_cons (p : Document) (ps : List Document) :
    firstBody k (p :: ps) = if p.hasContent k then p.bodyAt k else firstBody k ps := by
  rw [firstBody, List.find?_cons]
  cases p.hasContent k <;> rfl

/-- Of the earlier documents it matters only whether any tells what a call gives back. -/
theorem standing_congr {es fs : List Document} (h : es.any produces = fs.any produces)
    (ps : List Document) : standing es ps = standing fs ps := by
  induction ps generalizing es fs with
  | nil => rfl
  | cons p ps ih =>
    have hnext : (es ++ [p]).any produces = (fs ++ [p]).any produces := by
      rw [List.any_append, List.any_append, h]
    rw [standing, standing, h, ih hnext]

theorem raises_mem_sections (hd : d.headerForm = some form) : .raises ∈ d.sections := by
  cases d <;> simp [Dialect.headerForm] at hd <;> decide

theorem returns_mem_sections (hd : d.headerForm = some form) : .returns ∈ d.sections := by
  cases d <;> simp [Dialect.headerForm] at hd <;> decide

theorem yields_mem_sections (hd : d.headerForm = some form) : .yields ∈ d.sections := by
  cases d <;> simp [Dialect.headerForm] at hd <;> decide

section Step

variable {p q r : Document}

/-- What a merge takes besides raises: the descendant's body if it has content, else the
ancestor's. -/
theorem supersede_of_ne_raises (hs : k ≠ .raises) :
    supersede p q k = if q.hasContent k then q.bodyAt k else p.bodyAt k := by
  rw [supersede, bodyAt_withoutStaleRaises hs]

/-- A section besides raises is the first one with content, of a merge as of its two sides. -/
theorem firstBody_merge (hp : Read d p) (hr : Read d r) (hk : k ∈ d.sections) (hs : k ≠ .raises)
    (hget : r.bodyAt k = supersede p q k) (hq : Read d q) (ps : List Document) :
    firstBody k (r :: ps) = firstBody k (q :: p :: ps) := by
  rw [supersede_of_ne_raises hs] at hget
  rw [firstBody_cons, firstBody_cons, firstBody_cons, hr.hasContent hk, hget]
  cases hc : q.hasContent k with
  | true =>
    have hqc := hc
    rw [hq.hasContent hk] at hqc
    simp [hqc]
  | false =>
    rw [hp.hasContent hk]
    simp

/-- A merge tells what a call gives back where one of its sides does. -/
theorem produces_merge (hd : d.headerForm = some form) (hp : Read d p) (hq : Read d q)
    (hr : Read d r) (hget : ∀ k ∈ d.sections, r.bodyAt k = supersede p q k) :
    produces r = (produces q || produces p) := by
  have hcontent : ∀ k ∈ d.sections, k ≠ .raises →
      r.hasContent k = (q.hasContent k || p.hasContent k) := by
    intro k hk hs
    have hk' := hget k hk
    rw [supersede_of_ne_raises hs] at hk'
    rw [hr.hasContent hk, hk']
    cases hc : q.hasContent k with
    | true =>
      rw [hq.hasContent hk] at hc
      simp [hc]
    | false =>
      rw [hp.hasContent hk]
      simp
  rw [produces, produces, produces, hcontent .returns (returns_mem_sections hd) (by decide),
    hcontent .yields (yields_mem_sections hd) (by decide)]
  cases q.hasContent .returns <;> cases q.hasContent .yields <;>
    cases p.hasContent .returns <;> rfl

/-- What a merge takes of raises: the descendant's, else the ancestor's unless they are stale. -/
theorem supersede_raises :
    supersede p q .raises =
      if q.hasContent .raises then q.bodyAt .raises
      else if raisesIsStale p q then Body.empty .raises else p.bodyAt .raises := by
  rw [supersede, withoutStaleRaises]
  congr 1
  split
  · rw [bodyAt_clear, if_pos rfl]
  · rfl

theorem standing_nil_cons (p : Document) (ps : List Document) :
    standing [] (p :: ps) = p :: standing [p] ps := by
  rw [standing]
  simp

/-- What is raised is told by the first standing document that tells it, of a merge as of its two
sides. -/
theorem firstBody_standing_merge (hd : d.headerForm = some form) (hp : Read d p) (hq : Read d q)
    (hr : Read d r) (hget : ∀ k ∈ d.sections, r.bodyAt k = supersede p q k)
    (ps : List Document) :
    firstBody .raises (standing [] (r :: ps)) = firstBody .raises (standing [] (q :: p :: ps)) := by
  have hmem := raises_mem_sections hd
  have hrest : standing [r] ps = standing [q, p] ps := by
    apply standing_congr
    simp [produces_merge hd hp hq hr hget]
  have hsecond : standing [q] (p :: ps) =
      if produces p || !produces q then p :: standing [q, p] ps else standing [q, p] ps := by
    rw [standing]
    simp
  have hraises := hget .raises hmem
  rw [supersede_raises] at hraises
  rw [standing_nil_cons, standing_nil_cons, firstBody_cons, firstBody_cons, hsecond, hrest,
    hr.hasContent hmem, hraises]
  cases hqc : q.hasContent .raises with
  | true =>
    rw [hq.hasContent hmem] at hqc
    simp [hqc]
  | false =>
    simp only [Bool.false_eq_true, if_false]
    cases hpc : p.hasContent .raises with
    | true =>
      -- the ancestor raises: that is stale just where it does not stand
      have hstale : raisesIsStale p q = !(produces p || !produces q) := by
        rw [raisesIsStale, hpc]
        cases produces p <;> simp
      rw [hstale]
      cases produces p || !produces q with
      | true =>
        rw [hp.hasContent hmem] at hpc
        simp [firstBody_cons, hp.hasContent hmem, hpc]
      | false => simp [Body.empty, Section.hasItems, Body.isEmpty]
    | false =>
      have hstale : raisesIsStale p q = false := by rw [raisesIsStale, hpc]; rfl
      have hempty := hpc
      rw [hp.hasContent hmem] at hempty
      rw [hstale]
      simp only [Bool.false_eq_true, if_false, hempty]
      split
      · rw [firstBody_cons, hpc]
        rfl
      · rfl

end Step

/-- The documents of a docstring and its ancestors, nearest first. -/
def readAll (d : Dialect) (docs : List Text) : List Document :=
  docs.map fun t => parse d (some t)

/-- **A chain of canonical ancestors loses nothing.** It merges to a docstring in which each
section besides raises holds the body of the first docstring, nearest first, that has content
there, and raises that of the first such docstring that stands. -/
theorem get?_parse_fold (hd : d.headerForm = some form) {ancestors : List Text}
    (hx : Canonical d x) (ha : ∀ a ∈ ancestors, Canonical d a) :
    ∃ m, fold d x ancestors = some m ∧
      (∀ k ∈ d.sections, k ≠ .raises →
        (parse d (some m)).get? k = some (firstBody k (readAll d (x :: ancestors)))) ∧
      (parse d (some m)).get? .raises =
        some (firstBody .raises (standing [] (readAll d (x :: ancestors)))) := by
  induction ancestors generalizing x with
  | nil =>
    have hread := read_parse hd x
    have hfirst : ∀ k ∈ d.sections, (parse d (some x)).get? k =
        some (firstBody k [parse d (some x)]) := by
      intro k hk
      rw [hread.get? hk, firstBody_cons, hread.hasContent hk]
      cases he : ((parse d (some x)).bodyAt k).isEmpty with
      | true => exact congrArg some ((hread.2 k hk).eq_empty he)
      | false => rfl
    refine ⟨x, rfl, fun k hk _ => hfirst k hk, ?_⟩
    rw [readAll, List.map_cons, standing_nil_cons]
    exact hfirst .raises (raises_mem_sections hd)
  | cons a ancestors ih =>
    obtain ⟨m, hm, hcanonical, hget⟩ := (ha a List.mem_cons_self).merge hx hd
    obtain ⟨n, hn, hothers, hraises⟩ :=
      ih hcanonical fun c hc => ha c (List.mem_cons_of_mem a hc)
    have hreada := read_parse hd a
    have hreadx := read_parse hd x
    have hreadm := read_parse hd m
    refine ⟨n, ?_, fun k hk hs => ?_, ?_⟩
    · rw [fold, List.foldl_cons, hm]
      exact hn
    · rw [hothers k hk hs]
      exact congrArg some (firstBody_merge hreada hreadm hk hs (hget k hk) hreadx _)
    · rw [hraises]
      exact congrArg some (firstBody_standing_merge hd hreada hreadx hreadm hget _)

/-- Parameters come from the first ancestor, and what the second raises does not stand beside what
the docstring gives back. -/
theorem get?_parse_fold_returns :
    let x := "New.\n\nReturns\n-------\n    the sum".toList
    let ancestors := ["Old.\n\nParameters\n----------\nx: int".toList,
      "Raises\n------\nKeyError".toList]
    Canonical .numpy x ∧ (∀ a ∈ ancestors, Canonical .numpy a) ∧
    ∃ m, fold .numpy x ancestors = some m ∧
      (parse .numpy (some m)).get? .parameters =
        some (.items (OrderedMap.ofList [("x".toList, ": int".toList)])) ∧
      (parse .numpy (some m)).get? .raises = some (.text none) := by
  intro x ancestors
  have hx : Canonical .numpy x := by decide +kernel
  have ha : ∀ a ∈ ancestors, Canonical .numpy a := by decide +kernel
  obtain ⟨m, hm, hothers, hraises⟩ := get?_parse_fold rfl hx ha
  refine ⟨hx, ha, m, hm, ?_, ?_⟩
  · rw [hothers .parameters (by decide) (by decide)]
    decide +kernel
  · rw [hraises]
    decide +kernel

end Merge

end Docstring
