import Docstring.Proofs.Replacement

/-!
# What survives a merge

Whether the prose that a descendant has under a section is there again when the merged docstring
is read. It need not be: items are written without a further margin in underlined dialects, so
a row of theirs may be read as a header; a docstring with a single section may lose a margin; and
a summary is read without white space in front of it. These three are all that goes wrong
(`text?_parse_docs_iff`).
-/

namespace Docstring

open Text

variable {d : Dialect} {form : HeaderForm} {f : Section → Body} {k : Section} {a b m t : Text}

/-! ### Strays -/

/-- The sections of the catalog that are written below another. -/
def Dialect.below (d : Dialect) (k : Section) : List Section :=
  (d.sections.dropWhile fun j => decide (j ≠ k)).tail

/-- The blocks that rows of sections below another are read as, where these rows look like
headers. The texts are those of the sections as they are written. -/
def strays (d : Dialect) (g : Section → Option Text) (k : Section) : List Block :=
  (d.below k).flatMap fun j => ((g j).map fun t => (d.segment (rows t)).2).getD []

/-- Whether the prose that is written under a section is read there again: the last stray of the
section is the same prose, or there is none, no margin is taken off the rows and the summary
starts with a visible character. -/
def Survives (d : Dialect) (g : Section → Option Text) (m : Text) (k : Section) (t : Text) : Prop :=
  match Block.last? k (strays d g k) with
  | some ls => Body.proseOf ls = some t
  | none => margin (rows m).tail = 0 ∧ (k = .shortSummary → trimStart t = t)

theorem exists_sections_eq (hk : k ∈ d.sections) :
    ∃ above, d.sections = above ++ k :: d.below k := by
  have hne : ∃ j ∈ d.sections, ¬ decide (j ≠ k) = true := ⟨k, hk, by simp⟩
  have hdrop : d.sections.dropWhile (fun j => decide (j ≠ k)) ≠ [] := by
    intro he
    rw [dropWhile_nil_iff] at he
    obtain ⟨j, hj, hjk⟩ := hne
    exact hjk (he j hj)
  obtain ⟨j, js, hjs⟩ := List.exists_cons_of_ne_nil hdrop
  have hj : j = k := by
    have hhead := List.head?_dropWhile_not (fun j => decide (j ≠ k)) d.sections
    rw [hjs] at hhead
    simpa using hhead
  refine ⟨d.sections.takeWhile fun j => decide (j ≠ k), ?_⟩
  rw [Dialect.below, hjs, List.tail_cons, ← hj]
  rw [hj] at hjs
  rw [hj, ← hjs, List.takeWhile_append_dropWhile]

theorem notMem_below (hk : k ∈ d.sections) : k ∉ d.below k := by
  obtain ⟨above, h⟩ := exists_sections_eq hk
  have hnodup := d.sections_nodup
  rw [h, List.nodup_append] at hnodup
  exact (List.nodup_cons.1 hnodup.2.1).1

theorem below_subset_tail (hk : k ∈ d.sections) : d.below k ⊆ d.sections.tail := by
  obtain ⟨above, h⟩ := exists_sections_eq hk
  rw [h]
  cases above with
  | nil => exact fun j hj => hj
  | cons i above => exact fun j hj => by simp [hj]

/-- Of the blocks that other sections are read as, only strays can be of a section. -/
theorem map_last?_written (d : Dialect) (form : HeaderForm) (f : Section → Body)
    {ks : List Section} (hk : k ∉ ks) :
    (Block.last? k ((written d form f ks).flatMap (Block.spread d))).map (Body.ofLines k) =
      (Block.last? k (ks.flatMap fun j =>
        (((f j).render? d).map fun t => (d.segment (rows t)).2).getD [])).map (Body.ofLines k) := by
  induction ks with
  | nil => rfl
  | cons j ks ih =>
    simp only [List.mem_cons, not_or] at hk
    rw [List.flatMap_cons, Block.last?_append, Option.map_or, ← ih hk.2, written,
      List.filterMap_cons]
    cases (f j).render? d with
    | none => simp [Block.last?, written]
    | some t =>
      have hspread := Block.map_ofLines_last?_spread_append d ⟨j, heading form j, rows t⟩ k
        (l := []) rfl
      have hstray : Block.last? k (Block.spread d ⟨j, heading form j, rows t⟩) =
          Block.last? k (d.segment (rows t)).2 := by
        rw [Block.spread, Block.last?, if_neg (Ne.symm hk.1), Option.or_none]
      rw [hstray] at hspread
      simp only [Option.map_some, List.flatMap_cons, Option.getD_some]
      rw [Block.last?_append, Option.map_or, ← hspread, written]

/-! ### Reading prose again -/

/-- A margin is taken off where there is no other section, so there are no strays either. -/
theorem strays_of_margin (hd : d.headerForm = some form) (hk : k ∈ d.sections)
    (ht : (f k).render? d = some t) (hm : compose d f = some m) (h0 : margin (rows m).tail ≠ 0) :
    strays d (fun j => (f j).render? d) k = [] := by
  rw [strays, List.flatMap_eq_nil_iff]
  intro j hj
  have hmem := below_subset_tail hk hj
  cases hjt : (f j).render? d with
  | none => rfl
  | some s =>
    have hjk := eq_of_margin hd hm h0 (List.mem_of_mem_tail hmem) hjt hk ht
    exact absurd (hjk ▸ hj) (notMem_below hk)

/-- The summary is read as it is written exactly where it starts with a visible character. -/
theorem reading_lead_iff (hfree : d.HeaderFree (rows t))
    (hprose : Body.proseOf (rows t) = some t) :
    Block.reading .shortSummary ((Block.summary (lead (rows t))).spread d) = .text (some t) ↔
      trimStart t = t := by
  rcases lead_rows_cases (Body.proseOf_eq_some_iff.1 hprose).1 with ⟨htrim, hlead⟩ | ⟨htrim, hlt⟩
  · refine iff_of_true ?_ htrim
    have hread := Block.reading_spread_of_headerFree (b := Block.summary (rows t)) hfree
    rw [hlead]
    exact hread.trans (by rw [Block.summary, Body.ofLines, hprose]; rfl)
  · refine iff_of_false (fun hread => ?_) htrim
    have hle : weight (rows t) ≤ weight (lead (rows t)) :=
      Block.weight_le_of_reading (b := Block.summary (lead (rows t))) rfl hread
    omega

theorem below_shortSummary (hd : d.headerForm = some form) :
    d.below .shortSummary = d.sections.tail := by
  rw [Dialect.below, sections_eq_cons hd, List.dropWhile_cons_of_neg (by simp)]

/-- The section of a further block stands between those above and those below. -/
theorem exists_tail_eq (hd : d.headerForm = some form) (hk : k ∈ d.sections)
    (hs : k ≠ .shortSummary) : ∃ above, d.sections.tail = above ++ k :: d.below k := by
  obtain ⟨above, h⟩ := exists_sections_eq hk
  cases above with
  | nil =>
    rw [sections_eq_cons hd, List.nil_append, List.cons.injEq] at h
    exact absurd h.1.symm hs
  | cons i above => exact ⟨above, by rw [h]; rfl⟩

/-- What a section holds of a composed docstring without a margin: what the last stray makes of
it, else what its own rows do. -/
theorem get?_parse_compose_below (hf : Legible d f) (hd : d.headerForm = some form)
    (hk : k ∈ d.sections) (ht : (f k).render? d = some t) (hm : compose d f = some m)
    (h0 : margin (rows m).tail = 0) :
    (Document.parse d (some m)).get? k =
      some (((Block.last? k (strays d (fun j => (f j).render? d) k)).map (Body.ofLines k)).getD
        (Block.reading k (Block.spread d (if k = .shortSummary then Block.summary (lead (rows t))
          else ⟨k, heading form k, rows t⟩)))) := by
  have hbelow := map_last?_written d form f (notMem_below hk)
  rw [get?_parse_compose hf hd hk hm h0]
  congr 1
  by_cases hs : k = .shortSummary
  · subst hs
    have hopening : lead (opening d f) = lead (rows t) ++ [[]] := by
      have hb := (hf _ hk t ht).2
      rw [← joinLines_rows t] at hb
      rw [opening, ht]
      exact lead_append (exists_visible_of_isBlank hb) [[]]
    rw [if_pos rfl, Block.reading_append, ← below_shortSummary hd, hbelow, hopening]
    congr 1
    exact Block.reading_spread_append d (Block.summary (lead (rows t))) _ rfl
  · obtain ⟨above, htail⟩ := exists_tail_eq hd hk hs
    have hown : written d form f (k :: d.below k) =
        ⟨k, heading form k, rows t ++ [[]]⟩ :: written d form f (d.below k) := by
      rw [written, List.filterMap_cons, ht]
      rfl
    rw [if_neg hs, htail, written_append, hown, List.flatMap_append, List.flatMap_cons,
      ← List.append_assoc, ← List.append_assoc, Block.reading_append, hbelow,
      Block.reading_append_spread (k := k) (b := ⟨k, heading form k, rows t ++ [[]]⟩) _ rfl]
    congr 1
    exact Block.reading_spread_append d ⟨k, heading form k, rows t⟩ k rfl

/-- **Prose is read again exactly where it survives.** -/
theorem get?_parse_compose_iff (hf : Legible d f) (hd : d.headerForm = some form)
    (hk : k ∈ d.sections) (hi : k.hasItems = false) (ht : f k = .text (some t))
    (hfree : d.HeaderFree (rows t)) (hprose : Body.proseOf (rows t) = some t)
    (hm : compose d f = some m) :
    (Document.parse d (some m)).get? k = some (.text (some t)) ↔
      Survives d (fun j => (f j).render? d) m k t := by
  have hrender : (f k).render? d = some t := by rw [ht]; rfl
  by_cases h0 : margin (rows m).tail = 0
  · rw [get?_parse_compose_below hf hd hk hrender hm h0, Survives, Option.some_inj]
    cases Block.last? k (strays d (fun j => (f j).render? d) k) with
    | some ls => simp [Body.ofLines, hi]
    | none =>
      simp only [h0, true_and, Option.map_none, Option.getD_none]
      by_cases hs : k = .shortSummary
      · subst hs
        simp only [if_true, forall_const]
        exact reading_lead_iff hfree hprose
      · have hread := Block.reading_spread_of_headerFree (d := d)
          (b := ⟨k, heading form k, rows t⟩) hfree
        have hown : Body.ofLines k (rows t) = .text (some t) := by
          rw [Body.ofLines, if_neg (by simp [hi]), hprose]
        rw [if_neg hs]
        exact iff_of_true (hread.trans hown) fun h => absurd h hs
  · have hne := get?_parse_ne_of_margin hf hd hk hi ht hm h0
    rw [Survives, strays_of_margin hd hk hrender hm h0]
    exact iff_of_false hne fun h => h0 h.1

/-! ### Merged docstrings -/

namespace Merge

open Document

theorem text?_eq_some_iff {p : Document} :
    p.text? k = some t ↔ p.get? k = some (.text (some t)) := by
  rw [text?]
  split
  · next s hs => rw [hs, Option.some_inj, Body.text.injEq]
  · next hne =>
    refine iff_of_false (by simp) fun h => hne (some t) h

/-- The texts of the sections that a merge writes. -/
def texts (d : Dialect) (a b : Text) : Section → Option Text :=
  body d .replace none (withoutStaleRaises (parse d (some a)) (parse d (some b)))
    (parse d (some b))

theorem strays_texts (hd : d.headerForm = some form) (hk : k ∈ d.sections) :
    strays d (texts d a b) k =
      strays d (fun j => (supersede (parse d (some a)) (parse d (some b)) j).render? d) k := by
  refine List.flatMap_congr fun j hj => ?_
  have hmem := List.mem_of_mem_tail (below_subset_tail hk hj)
  rw [texts, body_eq_render?, merged_eq_supersede (read_parse hd a) (read_parse hd b) hmem]

/-- **What the descendant has under a section of prose is read again exactly where it survives**:
no row of the items written below is read as a header of the section over something else, the rows
of the merged docstring after its first have no margin, and a summary starts with a visible
character. -/
theorem text?_parse_docs_iff (hd : d.headerForm = some form) (ha : isBlank a = false)
    (hb : isBlank b = false) (hk : k.hasItems = false)
    (ht : (parse d (some b)).text? k = some t) :
    ∃ m, docs d .replace none (some a) (some b) = some m ∧
      ((parse d (some m)).text? k = some t ↔ Survives d (texts d a b) m k t) := by
  have hread := read_parse hd b
  have hget := text?_eq_some_iff.1 ht
  have hmem : k ∈ d.sections := by
    rw [← hread.1, OrderedMap.mem_keys_iff]
    exact Option.isSome_iff_exists.2 ⟨_, hget⟩
  have hbody : (parse d (some b)).bodyAt k = .text (some t) := by
    rw [bodyAt, hget]
    rfl
  have htaken : supersede (parse d (some a)) (parse d (some b)) k = .text (some t) := by
    rw [supersede, hread.hasContent hmem, hbody]
    rfl
  obtain ⟨hfree, hprose⟩ := (hbody ▸ hread.2 k hmem).prose hk
  have hf := legible_supersede (read_parse hd a) hread
  obtain ⟨m, hm⟩ := exists_compose (f := supersede (parse d (some a)) (parse d (some b)))
    (t := t) hmem (by rw [htaken]; rfl)
  refine ⟨m, (docs_eq_compose hd ha hb).trans hm, ?_⟩
  rw [text?_eq_some_iff, get?_parse_compose_iff hf hd hmem hk htaken hfree hprose hm, Survives,
    Survives, strays_texts hd hmem]

/-- What is given back survives beside the items of an ancestor, and is read again. -/
theorem text?_parse_docs_returns :
    let a := "Old.\n\nParameters\n----------\nx: int".toList
    let b := "New.\n\nReturns\n-------\n    the sum".toList
    isBlank a = false ∧ isBlank b = false ∧
    (parse .numpy (some b)).text? .returns = some "    the sum".toList ∧
    ∃ m, docs .numpy .replace none (some a) (some b) = some m ∧
      Survives .numpy (texts .numpy a b) m .returns "    the sum".toList ∧
      (parse .numpy (some m)).text? .returns = some "    the sum".toList := by
  intro a b
  have ha : isBlank a = false := by decide +kernel
  have hb : isBlank b = false := by decide +kernel
  have ht : (parse .numpy (some b)).text? .returns = some "    the sum".toList := by
    decide +kernel
  obtain ⟨m, hm, hiff⟩ := text?_parse_docs_iff rfl ha hb rfl ht
  have hread : ((docs .numpy .replace none (some a) (some b)).bind fun m =>
      (parse .numpy (some m)).text? .returns) = some "    the sum".toList := by
    decide +kernel
  rw [hm, Option.bind_some] at hread
  -- what follows does not look into the docstrings
  clear_value a b
  exact ⟨ha, hb, ht, m, hm, hiff.1 hread, hread⟩

/-- A margin is taken off where there is no other section, so prose is not always read again. -/
theorem not_forall_text?_parse_docs :
    ¬ ∀ (d : Dialect) (form : HeaderForm) (k : Section) (a b m t : Text),
      d.headerForm = some form → isBlank a = false → isBlank b = false → k.hasItems = false →
      (parse d (some b)).text? k = some t →
      docs d .replace none (some a) (some b) = some m →
      (parse d (some m)).text? k = some t := by
  intro h
  have hread := h .google .colon .returns "Returns:\n    str".toList "\nReturns:\n    int".toList
    "Returns:\n    int".toList "    int".toList rfl (by decide +kernel) (by decide +kernel) rfl
    (by decide +kernel) (by decide +kernel)
  exact absurd hread (by decide +kernel)

end Merge

end Docstring
