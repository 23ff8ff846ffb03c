import Docstring.Sorted
import Docstring.Text.Basic

/-!
# Paths

A path is a text in which slashes divide names. Its spelling is kept, since it is shown to the
user; two paths are told apart and put in order by their parts, so that a doubled slash or a
dot in the middle makes no difference.
-/

namespace Docstring

/-- A path as it is spelled. -/
abbrev Path := Text

namespace Path

/-- A part of a path. -/
inductive Part where
  /-- The slash at the start. -/
  | root
  /-- A dot at the start. -/
  | here
  /-- Two dots. -/
  | up
  /-- A name. -/
  | name (t : Text)
  deriving DecidableEq

namespace Part

/-- The place of a kind of part in the order of parts. -/
def rank : Part → Nat
  | root => 0
  | here => 1
  | up => 2
  | name _ => 3

/-- The text of a part that is a name. -/
def text : Part → Text
  | name t => t
  | _ => []

/-- The order of parts: the root, the two kinds of dots, then names character by character. -/
def compare (p q : Part) : Ordering :=
  (Ord.compare p.rank q.rank).then (List.compareLex Ord.compare p.text q.text)

end Part

/-- The texts between the slashes of a path. -/
def pieces (p : Path) : List Text := p.splitOn '/'

/-- The part that a piece makes inside a path, if any. -/
def part? (t : Text) : Option Part :=
  if t = [] || t = ['.'] then none
  else if t = ['.', '.'] then some .up
  else some (.name t)

/-- Whether a path starts at the root. -/
def isAbsolute (p : Path) : Bool := p.head? = some '/'

/-- The parts of a path. -/
def parts (p : Path) : List Part :=
  let ts := pieces p
  let start :=
    if isAbsolute p then [Part.root]
    else if ts.head? = some ['.'] then [Part.here]
    else []
  start ++ ts.filterMap part?

/-- The order of paths, part by part. -/
def compare (p q : Path) : Ordering := List.compareLex Part.compare (parts p) (parts q)

/-- A path with a name added to it. -/
def join (p : Path) (name : Text) : Path :=
  if p = [] || p.getLast? = some '/' then p ++ name else p ++ '/' :: name

/-- A path without the slashes at its end. -/
def dropSlashes (p : Path) : Path := Text.dropEndWhile (· = '/') p

/-- The last name of a path, unless it ends otherwise. -/
def fileName? (p : Path) : Option Text :=
  match (parts p).getLast? with
  | some (.name t) => some t
  | _ => none

/-- A name without its extension: the last dot, unless the name starts with it, and what follows
the dot. -/
def dropExtension (name : Text) : Text :=
  let front := Text.dropEndWhile (· ≠ '.') name
  if front.length ≤ 1 then name else front.dropLast

/-- The last name of a path without its extension. -/
def stem (p : Path) : Text :=
  match fileName? p with
  | some name => dropExtension name
  | none => p

/-- Paths in order, each one once, in the spelling in which it comes first. -/
def sorted (ps : List Path) : List Path := Sorted.ofList compare ps

end Path

end Docstring
