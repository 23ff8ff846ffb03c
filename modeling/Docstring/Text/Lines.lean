import Docstring.Text.Basic

/-!
# Lines

A text is read as lines that end at a line feed, or at a carriage return with a line feed after
it. A line feed at the end of the text starts no further line, so the empty text has no line.
A carriage return anywhere else is a character like any other.
-/

namespace Docstring

namespace Text

/-- Each carriage return with a line feed after it, replaced by the line feed alone. -/
def unifyBreaks : Text → Text
  | [] => []
  | '\r' :: '\n' :: t => '\n' :: unifyBreaks t
  | c :: t => c :: unifyBreaks t

/-- A character in front of the first of some texts, or as a text of its own. -/
def consHead (c : Char) : List Text → List Text
  | [] => [[c]]
  | l :: ls => (c :: l) :: ls

/-- The lines of a text whose breaks are line feeds. -/
def splitBreaks : Text → List Line
  | [] => []
  | c :: t => if c = '\n' then [] :: splitBreaks t else consHead c (splitBreaks t)

/-- The lines of a text. -/
def lines (t : Text) : List Line := splitBreaks (unifyBreaks t)

/-- The pieces of a text, each up to and with its line feed. -/
def segments : Text → List Text
  | [] => []
  | c :: t => if c = '\n' then ['\n'] :: segments t else consHead c (segments t)

/-- Lines as one text, a line feed between each two. -/
def joinLines (ls : List Line) : Text := ['\n'].intercalate ls

/-! ### Joined lines -/

@[simp] theorem joinLines_nil : joinLines [] = [] := rfl

@[simp] theorem joinLines_singleton (l : Line) : joinLines [l] = l := by
  simp [joinLines]

@[simp] theorem joinLines_cons_cons (l m : Line) (ls : List Line) :
    joinLines (l :: m :: ls) = l ++ '\n' :: joinLines (m :: ls) := by
  simp [joinLines]

theorem joinLines_cons_of_ne_nil (l : Line) {ls : List Line} (h : ls ≠ []) :
    joinLines (l :: ls) = l ++ '\n' :: joinLines ls := by
  obtain ⟨m, ms, rfl⟩ := List.exists_cons_of_ne_nil h
  exact joinLines_cons_cons l m ms

/-! ### Pieces -/

@[simp] theorem flatten_consHead (c : Char) (ls : List Text) :
    (consHead c ls).flatten = c :: ls.flatten := by
  cases ls <;> simp [consHead]

/-- The pieces of a text make up the text. -/
@[simp] theorem flatten_segments (t : Text) : (segments t).flatten = t := by
  induction t with
  | nil => rfl
  | cons c t ih =>
    by_cases h : c = '\n' <;> simp [segments, h, ih]

/-! ### Splitting -/

/-- No line holds a line feed. -/
theorem newline_notMem_of_mem_splitBreaks {t : Text} {l : Line} (h : l ∈ splitBreaks t) :
    '\n' ∉ l := by
  induction t generalizing l with
  | nil => simp [splitBreaks] at h
  | cons c t ih =>
    by_cases hc : c = '\n'
    · simp only [splitBreaks, hc, if_pos, List.mem_cons] at h
      rcases h with rfl | h
      · simp
      · exact ih h
    · simp only [splitBreaks, hc, if_neg, not_false_eq_true] at h
      cases hs : splitBreaks t with
      | nil =>
        simp only [hs, consHead, List.mem_singleton] at h
        subst h
        simp [Ne.symm hc]
      | cons m ms =>
        simp only [hs, consHead, List.mem_cons] at h ih
        rcases h with rfl | h
        · simp [Ne.symm hc, ih (Or.inl rfl)]
        · exact ih (Or.inr h)

theorem newline_notMem_of_mem_lines {t : Text} {l : Line} (h : l ∈ lines t) : '\n' ∉ l :=
  newline_notMem_of_mem_splitBreaks h

/-- A line in front of a line feed is split off. -/
theorem splitBreaks_append_newline {l : Line} (h : '\n' ∉ l) (t : Text) :
    splitBreaks (l ++ '\n' :: t) = l :: splitBreaks t := by
  induction l with
  | nil => simp [splitBreaks]
  | cons c l ih =>
    simp only [List.mem_cons, not_or] at h
    simp [splitBreaks, Ne.symm h.1, ih h.2, consHead]

/-- A text without line feeds is one line, unless it is empty. -/
theorem splitBreaks_eq_singleton {l : Line} (h : '\n' ∉ l) (hl : l ≠ []) :
    splitBreaks l = [l] := by
  induction l with
  | nil => exact absurd rfl hl
  | cons c l ih =>
    simp only [List.mem_cons, not_or] at h
    by_cases hne : l = []
    · subst hne
      simp [splitBreaks, Ne.symm h.1, consHead]
    · simp [splitBreaks, Ne.symm h.1, ih h.2 hne, consHead]

/-- Joined lines are split as they were, unless the last one is empty. -/
theorem splitBreaks_joinLines {ls : List Line} (h : ∀ l ∈ ls, '\n' ∉ l)
    (hlast : ls.getLast? ≠ some []) : splitBreaks (joinLines ls) = ls := by
  induction ls with
  | nil => rfl
  | cons l ls ih =>
    have hl : '\n' ∉ l := h l List.mem_cons_self
    by_cases hne : ls = []
    · subst hne
      have hl' : l ≠ [] := by
        rintro rfl
        exact hlast rfl
      rw [joinLines_singleton]
      exact splitBreaks_eq_singleton hl hl'
    · rw [joinLines_cons_of_ne_nil l hne, splitBreaks_append_newline hl]
      congr 1
      refine ih (fun m hm => h m (List.mem_cons_of_mem l hm)) ?_
      intro hls
      apply hlast
      rw [List.getLast?_cons, hls]
      rfl

/-- A text without carriage returns has its breaks unified already. -/
theorem unifyBreaks_eq_self {t : Text} (h : '\r' ∉ t) : unifyBreaks t = t := by
  induction t with
  | nil => rfl
  | cons c t ih =>
    simp only [List.mem_cons, not_or] at h
    rw [unifyBreaks, ih h.2]
    rintro t' rfl
    exact absurd rfl h.1

end Text

end Docstring
