import Docstring.Proofs.Entries
import Docstring.Proofs.Replacement

/-!
# Docstrings in code

A docstring stands in code with its first line behind a quote and the others as deep as the code
(`Literal`). However deep that is, the docstring is read as the same document: the margin takes off
just what the code puts in front (`map_trimEnd_settle_padRow`), and tabs stay as wide as they were
where the code moves them by whole tab stops (`expandTabs_add`). So a merge does not depend on the
code that its two sides stand in. Nor does it matter whether lines end in a line feed alone or with
a carriage return in front of it (`lines_withReturns`).
-/

namespace Docstring

open Text

variable {d : Dialect} {form : HeaderForm}

namespace Text

/-! ### Columns -/

/-- Tabs are as wide as before where a row is moved by whole tab stops. -/
theorem expandTabs_add {n : Nat} {l : Line} (h : tabWidth ∣ n ∨ '\t' ∉ l) (column : Nat) :
    expandTabs (n + column) l = expandTabs column l := by
  induction l generalizing column with
  | nil => rfl
  | cons c l ih =>
    have ih := ih (h.imp_right fun ht hmem => ht (List.mem_cons_of_mem c hmem))
    unfold expandTabs
    split
    · next hc =>
      subst hc
      obtain ⟨m, rfl⟩ := h.resolve_right (by simp)
      rw [Nat.mul_add_mod]
      dsimp only
      rw [Nat.add_assoc, ih]
    · rw [Nat.add_assoc, ih]

theorem expandTabs_append_spaces (n : Nat) (l : Line) (column : Nat) :
    expandTabs column (List.replicate n ' ' ++ l) =
      List.replicate n ' ' ++ expandTabs (n + column) l := by
  induction n generalizing column with
  | zero => rw [Nat.zero_add, List.replicate_zero, List.nil_append, List.nil_append]
  | succ n ih =>
    rw [List.replicate_succ, List.cons_append, expandTabs, if_neg (by decide), ih,
      List.cons_append, Nat.add_right_comm n 1 column, Nat.add_assoc]

/-- Spaces in front of a row stay there, and the tabs in it as wide as they were. -/
theorem expandTabs_padRow {n : Nat} {l : Line} (h : tabWidth ∣ n ∨ '\t' ∉ l) :
    expandTabs 0 (padRow (List.replicate n ' ') l) =
      padRow (List.replicate n ' ') (expandTabs 0 l) := by
  unfold padRow
  rw [isBlank_expandTabs]
  split
  · rfl
  · rw [expandTabs_append_spaces, expandTabs_add h]

/-! ### Indented rows -/

theorem mem_of_mem_indent {w t : Text} {c : Char} (h : c ∈ indent w t) : c ∈ w ∨ c ∈ t := by
  obtain ⟨s, hs, hc⟩ := List.mem_flatMap.1 h
  have hmem : c ∈ s → c ∈ t := fun hc => by
    rw [← flatten_segments t]
    exact List.mem_flatten.2 ⟨s, hs, hc⟩
  split at hc
  · exact .inr (hmem hc)
  · exact (List.mem_append.1 hc).imp_right hmem

theorem isBlank_indent (w t : Text) : isBlank (indent w t) = isBlank t := by
  have hcomp : isBlank ∘ padRow w = isBlank := funext (isBlank_padRow w)
  rw [← joinLines_rows t, indent_joinLines w fun l hl => newline_notMem_of_mem_rows hl,
    isBlank_joinLines, isBlank_joinLines, List.all_map, hcomp]

/-- Rows are split as they were before they were padded. -/
theorem splitBreaks_joinLines_padRow {w : Text} (hw : '\n' ∉ w) {ls : List Line}
    (h : ∀ l ∈ ls, '\n' ∉ l) :
    splitBreaks (joinLines (ls.map (padRow w))) = (splitBreaks (joinLines ls)).map (padRow w) := by
  have hpad : ∀ l : Line, '\n' ∉ l → '\n' ∉ padRow w l := by
    intro l hl
    unfold padRow
    split
    · exact hl
    · simp [hw, hl]
  induction ls with
  | nil => rfl
  | cons l ls ih =>
    have hl := h l List.mem_cons_self
    by_cases hne : ls = []
    · subst hne
      rw [List.map_singleton, joinLines_singleton, joinLines_singleton]
      by_cases hnil : l = []
      · subst hnil
        rfl
      · have hpadded : padRow w l ≠ [] := by
          unfold padRow
          split <;> simp [hnil]
        rw [splitBreaks_eq_singleton hl hnil, splitBreaks_eq_singleton (hpad l hl) hpadded,
          List.map_singleton]
    · rw [List.map_cons, joinLines_cons_of_ne_nil _ (by simpa using hne),
        splitBreaks_append_newline (hpad l hl), ih fun m hm => h m (List.mem_cons_of_mem l hm),
        joinLines_cons_of_ne_nil l hne, splitBreaks_append_newline hl, List.map_cons]

theorem splitBreaks_indent {w : Text} (hw : '\n' ∉ w) (t : Text) :
    splitBreaks (indent w t) = (splitBreaks t).map (padRow w) := by
  have hrows : ∀ l ∈ rows t, '\n' ∉ l := fun l hl => newline_notMem_of_mem_rows hl
  have hsplit := splitBreaks_joinLines_padRow hw hrows
  rwa [← indent_joinLines w hrows, joinLines_rows] at hsplit

/-! ### Margins of indented rows -/

/-- **The margin takes off just what padding puts in front**, up to white space at the ends of
rows: blank rows are not padded, and the larger margin takes more of them. -/
theorem map_trimEnd_settle_padRow {w : Text} (h : isBlank w = true) (first : Line)
    (rest : List Line) :
    (settle (first :: rest.map (padRow w))).map trimEnd =
      (settle (first :: rest)).map trimEnd := by
  have htrim : ∀ l, isBlank (trimEnd l) = isBlank l := fun l => by
    rw [Bool.eq_iff_iff, ← trimEnd_eq_nil_iff, trimEnd_trimEnd, trimEnd_eq_nil_iff]
  have hrow : ∀ l ∈ rest, trimEnd (strip (margin (rest.map (padRow w))) (padRow w l)) =
      trimEnd (strip (margin rest) l) := by
    intro l hl
    cases hb : isBlank l with
    | true =>
      rw [trimEnd_eq_nil_iff.2 (by rw [isBlank_strip, isBlank_padRow, hb]),
        trimEnd_eq_nil_iff.2 (by rw [isBlank_strip, hb])]
    | false => rw [margin_map_padRow h ⟨l, hl, hb⟩, strip_padRow h _ hb]
  unfold settle
  rw [← trimBlankLines_map htrim, ← trimBlankLines_map htrim, List.map_cons, List.map_cons,
    List.map_map, List.map_map, List.map_map]
  exact congrArg (fun ls => trimBlankLines (trimEnd (trimStart first) :: ls))
    (List.map_congr_left hrow)

/-! ### Carriage returns -/

/-- A text with a carriage return in front of each line feed. -/
def withReturns (t : Text) : Text := t.flatMap fun c => if c = '\n' then ['\r', '\n'] else [c]

theorem unifyBreaks_withReturns {t : Text} (h : '\r' ∉ t) : unifyBreaks (withReturns t) = t := by
  induction t with
  | nil => rfl
  | cons c t ih =>
    simp only [List.mem_cons, not_or] at h
    have ih := ih h.2
    unfold withReturns at ih ⊢
    rw [List.flatMap_cons]
    split
    · next hc =>
      rw [hc, List.cons_append, List.cons_append, List.nil_append, unifyBreaks, ih]
    · rw [List.cons_append, List.nil_append, unifyBreaks, ih]
      rintro s rfl
      exact absurd rfl h.1

/-- **Lines are the same with carriage returns at their ends and without.** -/
theorem lines_withReturns {t : Text} (h : '\r' ∉ t) : lines (withReturns t) = lines t := by
  rw [lines, unifyBreaks_withReturns h, lines, unifyBreaks_eq_self h]

theorem isBlank_withReturns (t : Text) : isBlank (withReturns t) = isBlank t := by
  induction t with
  | nil => rfl
  | cons c t ih =>
    unfold withReturns at ih ⊢
    rw [List.flatMap_cons, isBlank_append, ih, isBlank_cons]
    split
    · next hc =>
      subst hc
      rfl
    · rw [isBlank_cons, isBlank_nil, Bool.and_true]

theorem clean_withReturns {t : Text} (h : '\r' ∉ t) : clean (withReturns t) = clean t := by
  unfold clean cleanLines tabbedLines
  rw [lines_withReturns h]

end Text

/-! ### Literals -/

/-- A docstring as it stands in code: a line behind the quote, and the lines below. -/
structure Literal where
  /-- The line behind the quote. -/
  first : Line
  /-- The lines below, as they would be without the code around them. -/
  rest : Text
  /-- The first line is a single one. -/
  no_break : '\n' ∉ first
  /-- No line of the docstring holds a carriage return. -/
  no_return : '\r' ∉ first ∧ '\r' ∉ rest

namespace Literal

variable {x y : Literal} {m n : Nat}

/-- The docstring without the code around it. -/
def text (x : Literal) : Text := x.first ++ '\n' :: x.rest

/-- The docstring in code that is so many columns deep. -/
def atDepth (x : Literal) (n : Nat) : Text :=
  x.first ++ '\n' :: indent (List.replicate n ' ') x.rest

/-- Whether code of a depth moves tabs by whole stops, if there are any to move. -/
def Fits (x : Literal) (n : Nat) : Prop := tabWidth ∣ n ∨ '\t' ∉ x.rest

instance (x : Literal) (n : Nat) : Decidable (x.Fits n) :=
  inferInstanceAs (Decidable (tabWidth ∣ n ∨ '\t' ∉ x.rest))

theorem atDepth_zero (x : Literal) : x.atDepth 0 = x.text := by
  rw [atDepth, List.replicate_zero, indent_nil, text]

theorem isBlank_atDepth (x : Literal) (n : Nat) : isBlank (x.atDepth n) = isBlank x.text := by
  rw [atDepth, text, isBlank_append, isBlank_append, isBlank_cons, isBlank_cons, isBlank_indent]

theorem lines_atDepth (x : Literal) (n : Nat) :
    lines (x.atDepth n) =
      x.first :: (splitBreaks x.rest).map (padRow (List.replicate n ' ')) := by
  have hreturn : '\r' ∉ x.atDepth n := by
    unfold atDepth
    rw [List.mem_append, List.mem_cons, not_or, not_or]
    refine ⟨x.no_return.1, by decide, fun hr => ?_⟩
    rcases mem_of_mem_indent hr with hr | hr
    · exact absurd (List.mem_replicate.1 hr).2 (by decide)
    · exact x.no_return.2 hr
  rw [lines, unifyBreaks_eq_self hreturn, atDepth, splitBreaks_append_newline x.no_break,
    splitBreaks_indent fun hn => absurd (List.mem_replicate.1 hn).2 (by decide)]

theorem tabbedLines_atDepth (h : x.Fits n) :
    tabbedLines (x.atDepth n) = expandTabs 0 x.first ::
      ((splitBreaks x.rest).map (expandTabs 0)).map (padRow (List.replicate n ' ')) := by
  rw [tabbedLines, lines_atDepth, List.map_cons, List.map_map, List.map_map]
  congr 1
  refine List.map_congr_left fun l hl => ?_
  exact expandTabs_padRow (h.imp_right fun ht hmem => ht (mem_of_mem_splitBreaks hl hmem))

/-- **The lines in which headers are looked for are the same at every depth.** -/
theorem scanLines_atDepth (h : x.Fits n) :
    Document.scanLines (x.atDepth n) = Document.scanLines x.text := by
  have h0 : x.Fits 0 := .inl (Nat.dvd_zero tabWidth)
  rw [← atDepth_zero, Document.scanLines_eq, Document.scanLines_eq, cleanLines_eq_settle,
    cleanLines_eq_settle, tabbedLines_atDepth h, tabbedLines_atDepth h0,
    map_trimEnd_settle_padRow (isBlank_spaces n), map_trimEnd_settle_padRow (isBlank_spaces 0)]

theorem parse_atDepth (hd : d.headerForm = some form) (h : x.Fits n) :
    Document.parse d (some (x.atDepth n)) = Document.parse d (some x.text) := by
  rw [Document.parse_eq_ofLines hd, Document.parse_eq_ofLines hd, scanLines_atDepth h]

/-- **Visible docstrings merge alike at every depth.** -/
theorem docs_atDepth (hd : d.headerForm = some form) (policy : Policy)
    (params : Option (List Text)) (hx : x.Fits m) (hy : y.Fits n) (hbx : isBlank x.text = false)
    (hby : isBlank y.text = false) :
    Merge.docs d policy params (some (x.atDepth m)) (some (y.atDepth n)) =
      Merge.docs d policy params (some x.text) (some y.text) := by
  have hbx' := (x.isBlank_atDepth m).trans hbx
  have hby' := (y.isBlank_atDepth n).trans hby
  rw [Merge.docs_of_visible hbx' hby', Merge.docs_of_visible hbx hby,
    Merge.visible_eq_sectioned hd, Merge.visible_eq_sectioned hd, Merge.sectioned_eq_compose,
    Merge.sectioned_eq_compose, parse_atDepth hd hx, parse_atDepth hd hy]

end Literal

namespace Document

/-- **Layout does not matter.** In a dialect with sections a docstring is read as the same document
however deep the code is that it stands in, where that moves no tab by less than a whole stop, and
two visible docstrings merge alike at every depth. In every dialect, and by titles, a docstring is
read alike with carriage returns at the ends of its lines and without. -/
theorem parse_layout (d : Dialect) :
    (d.headerForm ≠ none → ∀ (x : Literal) (n : Nat), x.Fits n →
      parse d (some (x.atDepth n)) = parse d (some x.text)) ∧
    (∀ t : Text, '\r' ∉ t →
      parse d (some (withReturns t)) = parse d (some t) ∧
      Outline.parse (some (withReturns t)) = Outline.parse (some t)) ∧
    (d.headerForm ≠ none → ∀ (policy : Policy) (params : Option (List Text)) (x y : Literal)
      (m n : Nat), x.Fits m → y.Fits n → isBlank x.text = false → isBlank y.text = false →
      Merge.docs d policy params (some (x.atDepth m)) (some (y.atDepth n)) =
        Merge.docs d policy params (some x.text) (some y.text)) := by
  refine ⟨fun hd x n hn => ?_, fun t ht => ⟨?_, ?_⟩,
    fun hd policy params x y m n hx hy hbx hby => ?_⟩
  · obtain ⟨form, hd⟩ := Option.ne_none_iff_exists'.1 hd
    exact Literal.parse_atDepth hd hn
  · simp only [parse, scanLines, clean_withReturns ht]
  · simp only [Outline.parse, isBlank_withReturns, clean_withReturns ht]
  · obtain ⟨form, hd⟩ := Option.ne_none_iff_exists'.1 hd
    exact Literal.docs_atDepth hd policy params hx hy hbx hby

/-- A tab stays as wide in code that is eight columns deep, and three columns are as good as none
where there is no tab. -/
theorem parse_layout_tab :
    let x : Literal := ⟨"Sums.".toList, "\nReturns\n-------\n\tthe sum\n ".toList, by decide,
      by decide⟩
    let y : Literal := ⟨[' '], "  New.\n   more".toList, by decide, by decide⟩
    (parse .numpy (some (x.atDepth 8)) = parse .numpy (some x.text) ∧
      parse .numpy (some (y.atDepth 3)) = parse .numpy (some y.text)) ∧
    (parse .rest (some (withReturns x.text)) = parse .rest (some x.text) ∧
      Outline.parse (some (withReturns x.text)) = Outline.parse (some x.text)) ∧
    Merge.docs .numpy .replace none (some (x.atDepth 8)) (some (y.atDepth 3)) =
      Merge.docs .numpy .replace none (some x.text) (some y.text) ∧
    Merge.docs .numpy .replace none (some x.text) (some y.text) =
      some "New.\n more\n\nReturns\n-------\n        the sum".toList := by
  intro x y
  have hd : Dialect.numpy.headerForm ≠ none := by decide
  obtain ⟨hparse, -, hdocs⟩ := parse_layout .numpy
  have hx : x.Fits 8 := by decide
  have hy : y.Fits 3 := by decide
  exact ⟨⟨hparse hd x 8 hx, hparse hd y 3 hy⟩, (parse_layout .rest).2.1 x.text (by decide),
    hdocs hd .replace none x y 8 3 hx hy (by decide) (by decide), by decide +kernel⟩

end Document

end Docstring
