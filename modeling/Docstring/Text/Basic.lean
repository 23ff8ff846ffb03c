/-!
# Texts

A text is the list of its characters, each one code point. This module has white space,
blankness and trimming. White space is the Unicode property White_Space, so a no-break space
is trimmed and a zero width space is not.
-/

namespace Docstring

/-- A text, character by character. -/
abbrev Text := List Char

/-- A text shown as one line, without its line break. -/
abbrev Line := Text

namespace Text

/-- Whether a character lies in one of the ranges, whose ends are included. -/
def inRanges (ranges : List (Nat × Nat)) (c : Char) : Bool :=
  ranges.any fun r => r.1 ≤ c.toNat && c.toNat ≤ r.2

/-- The property White_Space. -/
def spaceRanges : List (Nat × Nat) :=
  [(0x9, 0xD), (0x20, 0x20), (0x85, 0x85), (0xA0, 0xA0), (0x1680, 0x1680), (0x2000, 0x200A),
   (0x2028, 0x2029), (0x202F, 0x202F), (0x205F, 0x205F), (0x3000, 0x3000)]

/-- A character of white space. -/
def isSpace (c : Char) : Bool := inRanges spaceRanges c

/-- A text that shows nothing. -/
def isBlank (t : Text) : Bool := t.all isSpace

/-- A docstring that is absent or shows nothing. -/
def isBlankDoc (doc : Option Text) : Bool := doc.all isBlank

/-- A list without the longest run at its end whose members all satisfy `p`. -/
def dropEndWhile {α : Type} (p : α → Bool) (l : List α) : List α :=
  (l.reverse.dropWhile p).reverse

/-- A text from its first visible character on. -/
def trimStart (t : Text) : Text := t.dropWhile isSpace

/-- A text up to its last visible character. -/
def trimEnd (t : Text) : Text := dropEndWhile isSpace t

/-- A text from its first to its last visible character. -/
def trim (t : Text) : Text := trimStart (trimEnd t)

/-! ### Blank texts -/

@[simp] theorem isBlank_nil : isBlank [] = true := rfl

@[simp] theorem isBlank_cons (c : Char) (t : Text) :
    isBlank (c :: t) = (isSpace c && isBlank t) := rfl

@[simp] theorem isBlank_append (s t : Text) : isBlank (s ++ t) = (isBlank s && isBlank t) := by
  simp [isBlank]

theorem isBlank_iff {t : Text} : isBlank t = true ↔ ∀ c ∈ t, isSpace c = true := by
  simp [isBlank]

/-- A docstring that is not blank is there, and shows something. -/
theorem exists_of_isBlankDoc {doc : Option Text} (h : isBlankDoc doc = false) :
    ∃ t, doc = some t ∧ isBlank t = false := by
  cases doc with
  | none => simp [isBlankDoc] at h
  | some t => exact ⟨t, rfl, h⟩

/-! ### Trimming -/

@[simp] theorem dropEndWhile_nil {α : Type} (p : α → Bool) : dropEndWhile p [] = [] := rfl

/-- A last member that does not satisfy `p` keeps the whole list. -/
theorem dropEndWhile_concat_neg {α : Type} {p : α → Bool} (l : List α) {a : α}
    (h : p a = false) : dropEndWhile p (l ++ [a]) = l ++ [a] := by
  simp [dropEndWhile, h]

/-- A last member that satisfies `p` goes. -/
theorem dropEndWhile_concat_pos {α : Type} {p : α → Bool} (l : List α) {a : α}
    (h : p a = true) : dropEndWhile p (l ++ [a]) = dropEndWhile p l := by
  simp [dropEndWhile, h]

/-- Dropping from the start leaves nothing where every member satisfies `p`. -/
theorem dropWhile_nil_iff {α : Type} {p : α → Bool} {l : List α} :
    l.dropWhile p = [] ↔ ∀ a ∈ l, p a = true := by
  induction l with
  | nil => simp
  | cons a l ih => cases h : p a <;> simp [h, ih]

/-- Dropping from the end leaves nothing where every member satisfies `p`. -/
theorem dropEndWhile_eq_nil_iff {α : Type} {p : α → Bool} {l : List α} :
    dropEndWhile p l = [] ↔ ∀ a ∈ l, p a = true := by
  rw [dropEndWhile, List.reverse_eq_nil_iff, dropWhile_nil_iff]
  simp

/-- Trimming the end leaves nothing exactly of a blank text. -/
theorem trimEnd_eq_nil_iff {t : Text} : trimEnd t = [] ↔ isBlank t = true := by
  rw [trimEnd, dropEndWhile_eq_nil_iff, isBlank_iff]

/-- Trimming the start leaves nothing exactly of a blank text. -/
theorem trimStart_eq_nil_iff {t : Text} : trimStart t = [] ↔ isBlank t = true := by
  rw [trimStart, dropWhile_nil_iff, isBlank_iff]

end Text

end Docstring
