import Docstring.Proofs.ReadBack

/-!
# Margins that are taken off once

Rows that lost their common margin have none (`margin_level`), so a text that was dedented stays as
it is when that is done again, and so does a docstring in normal layout whose first line showed
something: without that line the first of the others would take its place and lose its own
indentation. Padding that is put in front of a dedented text is its margin, and comes off again.
Texts that are laid out have no tab, and neither begin nor end with a blank row (`layout_settles`).
-/

namespace Docstring

open Text

namespace Text

variable {t : Text}

/-! ### Rows that are laid out twice -/

/-- **Rows lose their margin once.** -/
theorem level_level (ls : List Line) : level (level ls) = level ls := by
  conv_lhs => rw [level, margin_level, map_strip_zero]
  exact trimBlankLines_level ls

/-- Settled rows: the first one, where that shows something, and what is left of the others. -/
theorem settle_cons {first : Line} (h : isBlank first = false) (rest : List Line) :
    settle (first :: rest) =
      trimStart first :: dropEndWhile isBlank (rest.map (strip (margin rest))) := by
  rw [settle, trimBlankLines_cons (by rwa [isBlank_trimStart]),
    dropEndWhile_cons_of_neg (by rwa [isBlank_trimStart])]

/-- **Rows settle once** where the first one shows something, for it is the first row of what is
left as well. -/
theorem settle_settle {ls : List Line} (h : ∀ l, ls.head? = some l → isBlank l = false) :
    settle (settle ls) = settle ls := by
  cases ls with
  | nil => rfl
  | cons first rest =>
    have hfirst := h first rfl
    have hvisible : isBlank (trimStart first) = false := by rwa [isBlank_trimStart]
    have hmargin : margin (dropEndWhile isBlank (rest.map (strip (margin rest)))) = 0 := by
      rw [margin_dropEndWhile, margin_map_strip]
    rw [settle_cons hfirst, settle_cons hvisible, hmargin, map_strip_zero,
      dropEndWhile_dropEndWhile, trimStart_trimStart]

/-! ### Texts that are laid out -/

/-- The rows of a text without carriage returns are read as they stand. -/
theorem verbatim_of_mem_tabbedLines (h : '\r' ∉ t) {l : Line} (hl : l ∈ tabbedLines t) :
    Verbatim l := by
  obtain ⟨m, hm, rfl⟩ := List.mem_map.1 hl
  have hreturn : '\r' ∉ m := by
    rw [lines, unifyBreaks_eq_self h] at hm
    exact fun hmem => h (mem_of_mem_splitBreaks hm hmem)
  exact ⟨tab_notMem_expandTabs 0 m, notMem_expandTabs (by decide) hreturn 0,
    newline_notMem_expandTabs (newline_notMem_of_mem_lines hm) 0⟩

theorem verbatim_of_mem_dedentedLines (h : '\r' ∉ t) {l : Line} (hl : l ∈ dedentedLines t) :
    Verbatim l := by
  obtain ⟨m, hm, hs⟩ := exists_suffix_of_mem_level hl
  exact (verbatim_of_mem_tabbedLines h hm).of_suffix hs

theorem verbatim_of_mem_cleanLines (h : '\r' ∉ t) {l : Line} (hl : l ∈ cleanLines t) :
    Verbatim l := by
  rw [cleanLines_eq_settle] at hl
  obtain ⟨m, hm, hs⟩ := exists_suffix_of_mem_settle hl
  exact (verbatim_of_mem_tabbedLines h hm).of_suffix hs

theorem getLast?_ne_of_forall {ls : List Line} (h : ∀ l, ls.getLast? = some l → isBlank l = false) :
    ls.getLast? ≠ some [] := fun he => absurd (h [] he) (by simp)

theorem getLast?_dedentedLines_ne (t : Text) : (dedentedLines t).getLast? ≠ some [] :=
  getLast?_ne_of_forall fun _ => isBlank_of_getLast?_trimBlankLines

theorem getLast?_cleanLines_ne (t : Text) : (cleanLines t).getLast? ≠ some [] := by
  rw [cleanLines_eq_settle]
  exact getLast?_ne_of_forall fun _ => isBlank_of_getLast?_settle

theorem dedent_dedent (h : '\r' ∉ t) : dedent (dedent t) = dedent t := by
  have htabbed : tabbedLines (dedent t) = dedentedLines t :=
    tabbedLines_joinLines_of_verbatim (fun _ => verbatim_of_mem_dedentedLines h)
      (getLast?_dedentedLines_ne t)
  calc dedent (dedent t) = joinLines (level (tabbedLines (dedent t))) := rfl
    _ = joinLines (level (level (tabbedLines t))) := by rw [htabbed, dedentedLines_eq_level]
    _ = joinLines (level (tabbedLines t)) := by rw [level_level]
    _ = dedent t := rfl

theorem clean_clean (h : '\r' ∉ t) (hfirst : ∀ l, (lines t).head? = some l → isBlank l = false) :
    clean (clean t) = clean t := by
  have htabbed : tabbedLines (clean t) = cleanLines t :=
    tabbedLines_joinLines_of_verbatim (fun _ => verbatim_of_mem_cleanLines h)
      (getLast?_cleanLines_ne t)
  have hhead : ∀ l, (tabbedLines t).head? = some l → isBlank l = false := by
    intro l hl
    rw [tabbedLines, List.head?_map] at hl
    obtain ⟨m, hm, rfl⟩ := Option.map_eq_some_iff.1 hl
    rw [isBlank_expandTabs]
    exact hfirst m hm
  have hlines : cleanLines (clean t) = cleanLines t := by
    rw [cleanLines_eq_settle (clean t), htabbed, cleanLines_eq_settle, settle_settle hhead]
  rw [clean, hlines, ← clean]

/-- Spaces in front of the rows of a dedented text are the margin that it is dedented by. -/
theorem dedent_indent (h : '\r' ∉ t) (hblank : ∀ l ∈ lines (dedent t), isBlank l = true → l = [])
    (k : Nat) : dedent (indent (List.replicate k ' ') (dedent t)) = dedent t := by
  have hverbatim : ∀ l ∈ dedentedLines t, Verbatim l := fun _ => verbatim_of_mem_dedentedLines h
  have hlines : lines (dedent t) = dedentedLines t :=
    lines_joinLines_of_verbatim hverbatim (getLast?_dedentedLines_ne t)
  have hplain : ∀ l ∈ dedentedLines t, Plain l := fun l hl =>
    ⟨(hverbatim l hl).no_tab, (hverbatim l hl).no_return, (hverbatim l hl).no_break,
      hblank l (hlines ▸ hl)⟩
  have hspaces : ∀ c, c ≠ ' ' → c ∉ List.replicate k ' ' :=
    fun c hc hmem => hc (List.mem_replicate.1 hmem).2
  have hrows : dedentedLines (joinLines ((dedentedLines t).map (padRow (List.replicate k ' ')))) =
      dedentedLines t :=
    dedentedLines_joinLines_map_padRow (isBlank_spaces k) (hspaces _ (by decide))
      (hspaces _ (by decide)) (hspaces _ (by decide)) hplain (margin_level _)
      (trimBlankLines_level _)
  rw [dedent.eq_1 t, indent_joinLines _ fun l hl => (hverbatim l hl).no_break, dedent, hrows]

/-- A text as the layout leaves it. -/
structure LaidOut (t : Text) : Prop where
  /-- Tabs are expanded. -/
  no_tab : '\t' ∉ t
  /-- If there is any text, its first row shows something. -/
  head : t ≠ [] → ∀ l, (rows t).head? = some l → isBlank l = false
  /-- If there is any text, its last row shows something. -/
  last : t ≠ [] → ∀ l, (rows t).getLast? = some l → isBlank l = false

theorem laidOut_joinLines {ls : List Line} (htab : ∀ l ∈ ls, '\t' ∉ l) (hbreak : ∀ l ∈ ls, '\n' ∉ l)
    (htrim : trimBlankLines ls = ls) : LaidOut (joinLines ls) := by
  obtain ⟨hhead, hlast⟩ := trimBlankLines_eq_self_iff.1 htrim
  have hrows : joinLines ls ≠ [] → rows (joinLines ls) = ls := by
    intro hne
    refine rows_joinLines ?_ hbreak
    rintro rfl
    exact hne rfl
  refine ⟨?_, fun hne => ?_, fun hne => ?_⟩
  · rw [mem_joinLines_iff (by decide)]
    rintro ⟨l, hl, hmem⟩
    exact htab l hl hmem
  · rw [hrows hne]
    exact hhead
  · rw [hrows hne]
    exact hlast

theorem laidOut_dedent (t : Text) : LaidOut (dedent t) := by
  refine laidOut_joinLines (fun l hl => ?_)
    (fun l => ItemMap.newline_notMem_of_mem_dedentedLines) (trimBlankLines_level _)
  obtain ⟨m, hm, hs⟩ := exists_suffix_of_mem_level hl
  obtain ⟨r, -, rfl⟩ := List.mem_map.1 hm
  exact fun hmem => tab_notMem_expandTabs 0 r (hs.mem hmem)

theorem laidOut_clean (t : Text) : LaidOut (clean t) := by
  refine laidOut_joinLines (fun l => Document.tab_notMem_of_mem_cleanLines)
    (fun l => Document.newline_notMem_of_mem_cleanLines) ?_
  rw [cleanLines_eq_settle]
  exact trimBlankLines_eq_self_iff.2
    ⟨fun _ => isBlank_of_head?_settle, fun _ => isBlank_of_getLast?_settle⟩

/-- **The layout settles at once** on a text without carriage returns: dedenting it a second time
changes nothing, nor does laying it out a second time as a docstring whose first line shows
something, and a dedented text whose blank lines are empty is what it was after it was indented by
spaces and dedented again. Whatever the text, the results have no tab and neither begin nor end
with a blank row. -/
theorem layout_settles :
    (∀ t : Text, '\r' ∉ t → dedent (dedent t) = dedent t) ∧
    (∀ t : Text, '\r' ∉ t → (∀ l, (lines t).head? = some l → isBlank l = false) →
      clean (clean t) = clean t) ∧
    (∀ t : Text, '\r' ∉ t → (∀ l ∈ lines (dedent t), isBlank l = true → l = []) →
      ∀ k, dedent (indent (List.replicate k ' ') (dedent t)) = dedent t) ∧
    ∀ t : Text, LaidOut (dedent t) ∧ LaidOut (clean t) :=
  ⟨fun _ => dedent_dedent, fun _ => clean_clean, fun _ => dedent_indent,
    fun t => ⟨laidOut_dedent t, laidOut_clean t⟩⟩

/-- Tabs are expanded before anything is measured, a short blank line is left empty, and a long one
goes at the end. -/
theorem layout_settles_tabs :
    let t := "\tSums.\n \n\t  of all\n    \t\n".toList
    '\r' ∉ t ∧ (∀ l, (lines t).head? = some l → isBlank l = false) ∧
    (∀ l ∈ lines (dedent t), isBlank l = true → l = []) ∧
    dedent t = "Sums.\n\n  of all".toList ∧ dedent (dedent t) = dedent t ∧
    clean t = "Sums.\n\nof all".toList ∧ clean (clean t) = clean t ∧
    dedent (indent (List.replicate 3 ' ') (dedent t)) = dedent t ∧
    LaidOut (dedent t) ∧ LaidOut (clean t) := by
  intro t
  have hreturn : '\r' ∉ t := by decide
  have hfirst : ∀ l, (lines t).head? = some l → isBlank l = false := by
    intro l hl
    obtain rfl : "\tSums.".toList = l := Option.some.inj hl
    rfl
  have hdedent : dedent t = "Sums.\n\n  of all".toList := by decide
  have hblank : ∀ l ∈ lines (dedent t), isBlank l = true → l = [] := by
    rw [hdedent]
    decide
  obtain ⟨hdedents, hcleans, hindents, hlaid⟩ := layout_settles
  exact ⟨hreturn, hfirst, hblank, hdedent, hdedents t hreturn, by decide,
    hcleans t hreturn hfirst, hindents t hreturn hblank 3, hlaid t⟩

/-- Behind a blank first line a docstring settles in two steps. -/
example : clean "\n  a\n    b".toList = "a\n  b".toList ∧
    clean "a\n  b".toList = "a\nb".toList := by decide

end Text

end Docstring
