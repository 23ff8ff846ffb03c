import Docstring.Proofs.Composed

/-!
# Rows that look like headers

A row that a docstring holds inside a section may be read as a header when the docstring is written
again: items of dialects with underlines are written without padding, and a docstring with a single
section loses its margin. So a section of a composed docstring is read either from the rows that it
was written in, up to the first such row, or from the rows below a look-alike of its header in some
section (`get?_parse_cases`).
-/

namespace Docstring

open Text

variable {d : Dialect} {form : HeaderForm} {f : Section → Body} {k : Section} {m t : Text}

/-! ### Rows as they are read -/

/-- Rows without a margin of those after the first. -/
def outdent (n : Nat) : List Line → List Line
  | [] => []
  | l :: ls => l :: ls.map (strip n)

/-- The rows that a section is read from, with the blank one below it, where the docstring loses a
margin. The summary starts the docstring, so no white space is left in front of it. -/
def rowsRead (n : Nat) (k : Section) (t : Text) : List Line :=
  if k = .shortSummary then lead (outdent n (rows t ++ [[]]))
  else (rows t ++ [[]]).map (strip n)

/-- A block that a row in a section of a docstring opens. The texts are those of the sections as
they are written. -/
def Lookalike (d : Dialect) (g : Section → Option Text) (m : Text) (b : Block) : Prop :=
  ∃ j ∈ d.sections, ∃ t, g j = some t ∧
    b ∈ (d.segment (rowsRead (margin (rows m).tail) j t)).2

theorem outdent_zero (ls : List Line) : outdent 0 ls = ls := by
  cases ls with
  | nil => rfl
  | cons l ls => rw [outdent, map_strip_zero]

theorem outdent_append_nil (n : Nat) {ls : List Line} (hne : ls ≠ []) :
    outdent n (ls ++ [[]]) = outdent n ls ++ [[]] := by
  obtain ⟨l, ls, rfl⟩ := List.exists_cons_of_ne_nil hne
  rw [List.cons_append, outdent, outdent, List.map_append, List.map_singleton, strip_nil,
    List.cons_append]

theorem exists_visible_outdent (n : Nat) {ls : List Line} (h : ∃ l ∈ ls, isBlank l = false) :
    ∃ l ∈ outdent n ls, isBlank l = false := by
  obtain ⟨l, hl, hb⟩ := h
  cases ls with
  | nil => simp at hl
  | cons first rest =>
    rcases List.mem_cons.1 hl with rfl | hl
    · exact ⟨l, List.mem_cons_self, hb⟩
    · exact ⟨strip n l, List.mem_cons_of_mem first (List.mem_map_of_mem hl), by
        rw [isBlank_strip, hb]⟩

/-- Rows in normal layout are those without their margin, up to the last visible one. -/
theorem settle_eq_lead (ls : List Line) :
    settle ls = dropEndWhile isBlank (lead (outdent (margin ls.tail) ls)) := by
  cases ls with
  | nil => rfl
  | cons l ls => rfl

/-! ### Blocks as they are read -/

/-- A summary alone is read as it is written, without its margin. -/
theorem get?_parse_alone (hf : Legible d f) (hd : d.headerForm = some form) (hk : k ∈ d.sections)
    (hm : compose d f = some m) (hw : written d form f d.sections.tail = []) :
    (f .shortSummary).render? d = some m ∧
    (Document.parse d (some m)).get? k = some (Block.reading k
      (Block.spread d (Block.summary (rowsRead (margin (rows m).tail) .shortSummary m)))) := by
  refine ⟨render?_of_written_nil hd hm hw, ?_⟩
  have hparse := Document.get?_parse_joinLines hd hk (hf.tidy_rows hd hm)
  have hvisible := exists_visible_outdent (margin (rows m).tail) (exists_visible_compose hf hd hm)
  have hread : rowsRead (margin (rows m).tail) .shortSummary m =
      lead (outdent (margin (rows m).tail) (rows m)) ++ [[]] := by
    rw [rowsRead, if_pos rfl, outdent_append_nil _ (rows_ne_nil m), lead_append hvisible]
  rw [joinLines_rows, settle_eq_lead, Block.reading_summary_dropEndWhile] at hparse
  rw [hparse, hread]
  congr 1
  exact (Block.reading_spread_append d (Block.summary _) k rfl).symm

/-- **A composed docstring is read as blocks of the rows that its sections are written in.** -/
theorem exists_blocks (hf : Legible d f) (hd : d.headerForm = some form) (hk : k ∈ d.sections)
    (hm : compose d f = some m) :
    ∃ bs, (Document.parse d (some m)).get? k = some (Block.reading k bs) ∧
      ∀ b ∈ bs, b = Block.summary [] ∨ ∃ j ∈ d.sections, ∃ t, (f j).render? d = some t ∧
        ∃ header, b ∈ Block.spread d ⟨j, header, rowsRead (margin (rows m).tail) j t⟩ := by
  by_cases h0 : margin (rows m).tail = 0
  · refine ⟨_, get?_parse_compose hf hd hk hm h0, fun b hb => ?_⟩
    rw [h0]
    rcases List.mem_append.1 hb with hb | hb
    · rw [opening] at hb
      split at hb
      · next t ht =>
        refine .inr ⟨_, shortSummary_mem_sections hd, t, ht, [], ?_⟩
        rwa [rowsRead, if_pos rfl, outdent_zero]
      · exact .inl (List.mem_singleton.1 hb)
    · obtain ⟨c, hc, hb⟩ := List.mem_flatMap.1 hb
      obtain ⟨j, hj, t, ht, rfl⟩ := mem_written hc
      have hs : j ≠ .shortSummary := fun hs => shortSummary_notMem_tail d (hs ▸ hj)
      refine .inr ⟨j, List.mem_of_mem_tail hj, t, ht, heading form j, ?_⟩
      rwa [rowsRead, if_neg hs, map_strip_zero]
  -- a margin is lost only where a single section is written
  · rcases margin_cases hd hm with h | hw | ⟨rfl, ho, c, hw⟩
    · exact absurd h h0
    · obtain ⟨ht, hget⟩ := get?_parse_alone hf hd hk hm hw
      exact ⟨_, hget, fun b hb => .inr ⟨_, shortSummary_mem_sections hd, m, ht, [], hb⟩⟩
    · obtain ⟨j, hj, t, ht, rfl⟩ := mem_written (hw ▸ List.mem_cons_self : c ∈ _)
      have hs : j ≠ .shortSummary := fun hs => shortSummary_notMem_tail d (hs ▸ hj)
      have hmem := List.mem_of_mem_tail hj
      obtain ⟨htail, hget⟩ := get?_parse_single hf hd hmem hk hm ho hw
      have hread : rowsRead (margin (rows m).tail) j t =
          (rows t).map (strip (margin (rows t))) ++ [[]] := by
        rw [rowsRead, if_neg hs, htail, List.map_append, List.map_singleton, strip_nil]
      refine ⟨Block.spread d ⟨j, heading .colon j, rowsRead (margin (rows m).tail) j t⟩, ?_,
        fun b hb => .inr ⟨j, hmem, t, ht, heading .colon j, hb⟩⟩
      rw [hget, hread]
      congr 1
      exact (Block.reading_spread_append d
        ⟨j, heading .colon j, (rows t).map (strip (margin (rows t)))⟩ k rfl).symm

/-- **What a section of a composed docstring is read from**: nothing, the rows that it is written in
up to the first that looks like a header, or the rows below a look-alike of its own header. -/
theorem get?_parse_cases (hf : Legible d f) (hd : d.headerForm = some form)
    (hk : k ∈ d.sections) (hm : compose d f = some m) :
    (Document.parse d (some m)).get? k = some (Body.empty k) ∨
    (∃ t, (f k).render? d = some t ∧ (Document.parse d (some m)).get? k =
      some (Body.ofLines k (d.segment (rowsRead (margin (rows m).tail) k t)).1)) ∨
    ∃ b, Lookalike d (fun j => (f j).render? d) m b ∧ b.kind = k ∧
      (Document.parse d (some m)).get? k = some (Body.ofLines k b.body) := by
  obtain ⟨bs, hget, hbs⟩ := exists_blocks hf hd hk hm
  rw [hget, Block.reading]
  cases hlast : Block.last? k bs with
  | none => exact .inl rfl
  | some ls =>
    obtain ⟨b, hb, rfl, rfl⟩ := Block.exists_mem_of_last? hlast
    rcases hbs b hb with rfl | ⟨j, hj, t, ht, header, hspread⟩
    · exact .inl (congrArg some (Body.ofLines_nil _))
    · rcases List.mem_cons.1 hspread with rfl | hinner
      · exact .inr (.inl ⟨t, ht, rfl⟩)
      · exact .inr (.inr ⟨b, ⟨j, hj, t, ht, hinner⟩, rfl, rfl⟩)

end Docstring
