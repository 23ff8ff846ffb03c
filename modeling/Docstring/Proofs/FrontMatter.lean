import Docstring.Proofs.Outlines

/-!
# Front matter

The outline of a docstring lists the front matter first, under the empty title, and every other
section under a title that is not empty. A line of white space is not empty, so an adornment below
it makes it a title; but a title is known by its wording without white space around it, and that of
such a line is the empty title. Then what stands under the empty title is no longer the text above
the first title. So that text is kept just when no title is blank (`parse_front_iff`).
-/

namespace Docstring

open Text

namespace Outline

/-- The outline of a docstring starts with its front matter: the text above the first title, under
the empty title and without any markup. -/
def FrontKept (doc : Option Text) : Prop :=
  ∃ front c es, IsAbove front (lines (clean (doc.getD []))) ∧
    (parse doc).chapters.entries = ([], c) :: es ∧ c.markup = [] ∧
    trimEnd (c.body.getD []) = trimEnd (joinLines front)

variable {ls : List Line}

theorem IsMarkup.joinLines_ne_nil {l : Line} {ms : List Line} (h : IsMarkup l ms) :
    joinLines ms ≠ [] := by
  cases h <;> simp [joinLines, List.intercalate]

/-- **What the outline of lines starts with**: the lines above the first title, or else a section
whose title is blank. -/
theorem exists_front_ofLines (ls : List Line) :
    ∃ c es, (ofLines ls).chapters.entries = ([], c) :: es ∧
      ((c = (frontEntry (divide ls).1).2 ∧ ∀ b ∈ (divide ls).2, isBlank b.title = false) ∨
        c.markup ≠ [] ∧ ∃ b ∈ (divide ls).2, isBlank b.title = true) := by
  have hblank : ∀ b : Block, b.entry.1 = [] ↔ isBlank b.title = true := by
    intro b
    rw [Block.entry, trim, trimStart_eq_nil_iff, isBlank_trimEnd]
  rw [chapters_ofLines]
  obtain ⟨c, es, hc, ⟨rfl, hes⟩ | hmem⟩ := OrderedMap.exists_entries_insertAll
    (m := (blank.insert [] ⟨[], some (bodyOf (divide ls).1)⟩).chapters) rfl
    ((divide ls).2.map Block.entry)
  · refine ⟨_, es, hc, .inl ⟨rfl, fun b hb => ?_⟩⟩
    rw [← Bool.not_eq_true, ← hblank]
    exact hes b.entry (List.mem_map_of_mem hb)
  · obtain ⟨b, hb, hentry⟩ := List.mem_map.1 hmem
    have hmarkup : b.entry.2.markup ≠ [] := ((sound_divide ls).2 b hb).markup.joinLines_ne_nil
    rw [hentry] at hmarkup
    exact ⟨c, es, hc, .inr ⟨hmarkup, b, hb, (hblank b).1 (by rw [hentry])⟩⟩

/-- **The front matter of a docstring is kept just when no title is blank.** In any case the empty
title comes first, and no other section stands under it. -/
theorem parse_front_iff (doc : Option Text) :
    (∃ c es, (parse doc).chapters.entries = ([], c) :: es ∧ ∀ e ∈ es, e.1 ≠ []) ∧
      (FrontKept doc ↔ ∀ l ∈ titles doc, isBlank l = false) := by
  have hfirst : ∀ {c es}, (parse doc).chapters.entries = ([], c) :: es → ∀ e ∈ es, e.1 ≠ [] := by
    intro c es hentries e he hnil
    have hnodup := (parse doc).chapters.nodup_keys
    rw [hentries, List.map_cons, List.nodup_cons] at hnodup
    exact hnodup.1 (List.mem_map.2 ⟨e, he, hnil⟩)
  cases hb : isBlankDoc doc with
  | true =>
    have hclean : clean (doc.getD []) = [] := by
      cases doc with
      | none => exact clean_of_isBlank rfl
      | some t => exact clean_of_isBlank hb
    have hentries : (parse doc).chapters.entries = [([], ⟨[], none⟩)] := by
      rw [parse_of_isBlankDoc hb]
      rfl
    refine ⟨⟨_, _, hentries, by simp⟩, iff_of_true ⟨[], _, _, ?_, hentries, rfl, rfl⟩ ?_⟩
    · rw [hclean]
      exact .all trivial
    · simp [titles_of_isBlankDoc hb]
  | false =>
    obtain ⟨t, rfl, ht⟩ := exists_of_isBlankDoc hb
    obtain ⟨c, es, hentries, hc⟩ := exists_front_ofLines (lines (clean t))
    rw [← parse_eq_ofLines ht] at hentries
    refine ⟨⟨c, es, hentries, hfirst hentries⟩, ?_⟩
    rw [titles_eq ht, List.forall_mem_map]
    rcases hc with ⟨rfl, hvisible⟩ | ⟨hmarkup, b, hb, hblank⟩
    · refine iff_of_true ⟨_, _, es, isAbove_iff.2 rfl, hentries, rfl, ?_⟩ hvisible
      exact trimEnd_trimEnd _
    · refine iff_of_false ?_ fun h => by simp [h b hb] at hblank
      rintro ⟨-, c', es', -, hentries', hmarkup', -⟩
      obtain ⟨rfl, -⟩ : c = c' ∧ es = es' := by simpa using hentries.symm.trans hentries'
      exact hmarkup hmarkup'

/-- The second line is as long as the adornment below it, and nothing of it shows. -/
theorem not_frontKept_blank_title :
    let doc := some "a\n   \n---".toList
    ¬ FrontKept doc ∧ IsAbove ["a".toList] (lines (clean (doc.getD []))) ∧
      (parse doc).chapters.entries = [([], ⟨"   \n---".toList, some []⟩)] := by
  intro doc
  have hentries : (parse doc).chapters.entries = [([], ⟨"   \n---".toList, some []⟩)] := by
    decide +kernel
  have habove : (divide (lines (clean (doc.getD [])))).1 = ["a".toList] := by decide +kernel
  refine ⟨?_, isAbove_iff.2 habove, hentries⟩
  rintro ⟨-, c, es, -, hc, hmarkup, -⟩
  obtain ⟨rfl, -⟩ : ⟨"   \n---".toList, some []⟩ = c ∧ [] = es := by
    simpa using hentries.symm.trans hc
  simp at hmarkup

end Outline

end Docstring
