import Docstring.OrderedMap
import Docstring.Text.Layout

/-!
# Outlines

A reST docstring has no catalog of sections. Any line with an adornment line under it, a run of
one punctuation character that is at least as long, is a title; a second run of the same
character and length may stand over it. The outline of a docstring lists what stands under each
title. The text before the first title is its front matter, under the empty title.
-/

namespace Docstring

open Text

/-- A title as it is written, and the text under it. -/
structure Chapter where
  /-- The lines of the title, adornment included; empty for the front matter. -/
  markup : Text
  /-- The text, where one was read. -/
  body : Option Text
  deriving DecidableEq, Inhabited

/-- Whether there is any text under a title. -/
def Chapter.hasBody (c : Chapter) : Bool := c.body.any fun b => !b.isEmpty

/-- Chapters by title, in order. -/
structure Outline where
  /-- The chapter of each title. -/
  chapters : OrderedMap Text Chapter
  deriving DecidableEq

namespace Outline

/-! ### Titles -/

/-- ASCII punctuation. -/
def isPunctuation (c : Char) : Bool :=
  inRanges [(0x21, 0x2F), (0x3A, 0x40), (0x5B, 0x60), (0x7B, 0x7E)] c

/-- An adornment line: one punctuation character, once or more. -/
def isAdornment : Line → Bool
  | [] => false
  | c :: l => isPunctuation c && l.all (· = c)

/-- Whether a line is an adornment that matches an underline, as long and of one character. -/
def isOverline (overline underline : Line) : Bool :=
  isAdornment overline && overline.length = underline.length && overline.head? = underline.head?

/-- Whether the second line makes the first one a title. -/
def isTitle (title underline : Line) : Bool :=
  isAdornment underline && !title.isEmpty && title.length ≤ underline.length

/-! ### Dividing lines -/

/-- A title with the lines under it. -/
structure Block where
  /-- The line that words the title. -/
  title : Line
  /-- The lines of the title, adornment included. -/
  markup : List Line
  /-- The lines up to the next title. -/
  body : List Line
  deriving DecidableEq

/-- Lines divided at their titles: the lines before the first one, then a block for each. An
overline belongs to its title, and a line that is part of a title is part of no other. -/
def divide : List Line → List Line × List Block
  | [] => ([], [])
  | [l] => ([l], [])
  | [l, u] => if isTitle l u then ([], [⟨l, [l, u], []⟩]) else ([l, u], [])
  | o :: l :: u :: ls =>
    if isTitle o l then
      let below := divide (u :: ls)
      ([], ⟨o, [o, l], below.1⟩ :: below.2)
    else if isTitle l u && isOverline o u then
      let below := divide ls
      ([], ⟨l, [o, l, u], below.1⟩ :: below.2)
    else
      let below := divide (l :: u :: ls)
      (o :: below.1, below.2)

/-- The lines before the first title and those of the blocks are all lines, in order. -/
theorem divide_append (ls : List Line) :
    (divide ls).1 ++ (divide ls).2.flatMap (fun b => b.markup ++ b.body) = ls := by
  fun_induction divide ls with
  | case1 => rfl
  | case2 => rfl
  | case3 => rfl
  | case4 => rfl
  | case5 o l u ls _ below ih => simpa [below] using ih
  | case6 o l u ls _ _ below ih => simpa [below] using ih
  | case7 o l u ls _ _ below ih => simpa [below] using ih

/-! ### Outlines -/

/-- The text of the lines under a title, without white space at its end. -/
def bodyOf (ls : List Line) : Text := trimEnd (joinLines ls)

/-- The outline of no text: front matter without a body. -/
def blank : Outline := ⟨OrderedMap.empty.insert [] ⟨[], none⟩⟩

/-- The outline with a chapter written under a title, in place where the title is present. -/
def insert (o : Outline) (title : Text) (c : Chapter) : Outline := ⟨o.chapters.insert title c⟩

/-- The outline without the chapter of a title. -/
def erase (o : Outline) (title : Text) : Outline := ⟨o.chapters.erase title⟩

/-- The chapter of a title. -/
def get? (o : Outline) (title : Text) : Option Chapter := o.chapters.get? title

/-- A chapter reads as last written, and writing under one title changes no other. -/
@[simp] theorem get?_insert (o : Outline) (title title' : Text) (c : Chapter) :
    (o.insert title c).get? title' = if title' = title then some c else o.get? title' :=
  OrderedMap.get?_insert o.chapters title title' c

/-- The text before the first title. -/
def front? (o : Outline) : Option Chapter := o.get? []

/-- The first outline with the chapters of the second written over it: shared titles keep their
places, new ones follow in order. -/
def overlay (o p : Outline) : Outline := ⟨o.chapters.overlay p.chapters⟩

/-- The outline of lines. A title is known by its wording without white space around it. -/
def ofLines (ls : List Line) : Outline :=
  let parts := divide ls
  parts.2.foldl (fun o b => o.insert (trim b.title) ⟨joinLines b.markup, some (bodyOf b.body)⟩)
    (blank.insert [] ⟨[], some (bodyOf parts.1)⟩)

/-- The outline of a docstring. -/
def parse (doc : Option Text) : Outline :=
  match doc with
  | none => blank
  | some doc => if isBlank doc then blank else ofLines (lines (clean doc))

/-- The titles that are met when a docstring is read, from top to bottom, as they are worded. -/
def titles (doc : Option Text) : List Line :=
  match doc with
  | none => []
  | some doc => if isBlank doc then [] else (divide (lines (clean doc))).2.map Block.title

/-- An outline as a docstring. -/
def render (o : Outline) : Text :=
  trimStart (['\n', '\n'].intercalate
    (o.chapters.values.map fun c => c.markup ++ '\n' :: c.body.getD []))

end Outline

end Docstring
