import Docstring.Text.Lines

/-!
# Layout

A docstring carries the indentation of the code it was written in. The first line never does;
all later lines share a margin, which is taken off before the docstring is read. Tabs are
expanded first, to stops eight columns apart, and blank lines at either end go.

`clean` is for a docstring, whose first line is measured apart; `dedent` is for a piece of one,
whose first line is measured with the others; `indent` goes the other way.
-/

namespace Docstring

namespace Text

/-- The columns between two tab stops. -/
def tabWidth : Nat := 8

/-- A line from the given column on, with spaces up to the next stop for each tab. -/
def expandTabs (column : Nat) : Line → Line
  | [] => []
  | c :: l =>
    if c = '\t' then
      let gap := tabWidth - column % tabWidth
      List.replicate gap ' ' ++ expandTabs (column + gap) l
    else c :: expandTabs (column + 1) l

/-- The lines of a text, with tabs expanded. -/
def tabbedLines (t : Text) : List Line := (lines t).map (expandTabs 0)

/-- How many characters of white space a line starts with. -/
def indentation (l : Line) : Nat := (l.takeWhile isSpace).length

/-- The smallest indentation of the lines that are not blank, zero where all are. -/
def margin (ls : List Line) : Nat :=
  (((ls.filter (!isBlank ·)).map indentation).min?).getD 0

/-- A line without its first `n` characters, as far as they are white space. -/
def strip (n : Nat) (l : Line) : Line := l.drop (min n (indentation l))

/-- Lines from the first to the last that is not blank. -/
def trimBlankLines (ls : List Line) : List Line := dropEndWhile isBlank (ls.dropWhile isBlank)

/-- The lines of a docstring in normal layout. -/
def cleanLines (doc : Text) : List Line :=
  match tabbedLines doc with
  | [] => []
  | first :: rest => trimBlankLines (trimStart first :: rest.map (strip (margin rest)))

/-- A docstring in normal layout: its first line starts at column zero, its other lines lose
their common margin, and blank lines at either end go. -/
def clean (doc : Text) : Text := joinLines (cleanLines doc)

/-- The lines of a piece of a docstring without the margin they share. -/
def dedentedLines (t : Text) : List Line :=
  let ls := tabbedLines t
  trimBlankLines (ls.map (strip (margin ls)))

/-- A text without the margin its lines share, the first one included, so that nested lines
keep their offset from it. -/
def dedent (t : Text) : Text := joinLines (dedentedLines t)

/-- A text with `padding` in front of each line that is not blank. Line breaks stay as they
are. -/
def indent (padding : Text) (t : Text) : Text :=
  (segments t).flatMap fun s => if isBlank s then s else padding ++ s

/-- No padding changes nothing. -/
@[simp] theorem indent_nil (t : Text) : indent [] t = t := by
  have h : (fun s : Text => if isBlank s then s else [] ++ s) = id := by
    funext s
    simp
  rw [indent, h, List.flatMap_id, flatten_segments]

end Text

end Docstring
