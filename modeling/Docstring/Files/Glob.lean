import Docstring.Files.Workspace

/-!
# Patterns

A pattern stands for the paths that match it, part by part. A question mark matches any one
character of a name, a star any run, and brackets one of the characters between them, or one
that is not there after an exclamation mark. Two stars, as a part of their own, match any number
of directories. Names that start with a dot are matched like any other. A directory that has to be
listed and cannot be is told where the paths in it would be.
-/

namespace Docstring

namespace Glob

/-! ### Parts of a pattern -/

/-- Characters between brackets. -/
inductive CharSet where
  /-- One character. -/
  | one (c : Char)
  /-- The characters from one to another. -/
  | range (first last : Char)
  deriving DecidableEq

/-- Whether a character is in one of some sets. -/
def inSets (sets : List CharSet) (c : Char) : Bool :=
  sets.any fun
    | .one d => c = d
    | .range first last => first ≤ c && c ≤ last

/-- The sets that a text between brackets spells. -/
def charSets : Text → List CharSet
  | [] => []
  | a :: '-' :: b :: t => .range a b :: charSets t
  | a :: t => .one a :: charSets t

/-- What a name has to show at one place. -/
inductive Token where
  /-- This character. -/
  | char (c : Char)
  /-- Any character. -/
  | anyChar
  /-- Any run of characters. -/
  | anyRun
  /-- A character in one of the sets. -/
  | within (sets : List CharSet)
  /-- A character in none of the sets. -/
  | except (sets : List CharSet)
  deriving DecidableEq

/-- A text up to the first closing bracket, and what follows the bracket. -/
def toBracket? : Text → Option (Text × Text)
  | [] => none
  | c :: t =>
    if c = ']' then some ([], t) else (toBracket? t).map fun r => (c :: r.1, r.2)

/-- The token of brackets, given what follows the opening one, and what follows the closing one.
The first character between them, exclamation mark apart, may be a closing bracket itself. -/
def brackets? : Text → Option (Token × Text)
  | '!' :: c :: t => (toBracket? t).map fun r => (.except (charSets (c :: r.1)), r.2)
  | '!' :: [] => none
  | c :: t => (toBracket? t).map fun r => (.within (charSets (c :: r.1)), r.2)
  | [] => none

/-- The tokens of a part that is not two stars. The first argument bounds the steps. -/
def tokensFrom? : Nat → Text → Option (List Token)
  | _, [] => some []
  | 0, _ => none
  | n + 1, c :: t =>
    match c with
    | '?' => (tokensFrom? n t).map (.anyChar :: ·)
    | '*' => if t.head? = some '*' then none else (tokensFrom? n t).map (.anyRun :: ·)
    | '[' => (brackets? t).bind fun r => (tokensFrom? n r.2).map (r.1 :: ·)
    | c => (tokensFrom? n t).map (.char c :: ·)

/-- A part of a pattern. -/
inductive Piece where
  /-- Any number of directories. -/
  | anyDirs
  /-- A name. -/
  | name (tokens : List Token)
  deriving DecidableEq

/-- The part of a pattern that a text spells. -/
def piece? (t : Text) : Option Piece :=
  if t = ['*', '*'] then some .anyDirs else (tokensFrom? t.length t).map .name

/-- The text of tokens that match nothing else. -/
def literal? (tokens : List Token) : Option Text :=
  tokens.mapM fun
    | .char c => some c
    | _ => none

/-! ### Matching names -/

/-- Whether a token matches a character. -/
def Token.accepts (t : Token) (c : Char) : Bool :=
  match t with
  | .char d => c = d
  | .anyChar => true
  | .anyRun => true
  | .within sets => inSets sets c
  | .except sets => !inSets sets c

/-- Whether `p` holds of some end of a text, the whole of it included. -/
def anySuffix (p : Text → Bool) : Text → Bool
  | [] => p []
  | c :: t => p (c :: t) || anySuffix p t

/-- Whether tokens match the whole of a name. -/
def accepts : List Token → Text → Bool
  | [], t => t.isEmpty
  | .anyRun :: ps, t => anySuffix (accepts ps) t
  | _ :: _, [] => false
  | p :: ps, c :: t => p.accepts c && accepts ps t

/-! ### Patterns -/

/-- A pattern. -/
structure Pattern where
  /-- Whether it starts at the root. -/
  absolute : Bool
  /-- Its parts, at least one. -/
  pieces : List Piece
  /-- Whether it ends in a slash, and so stands for directories alone. -/
  dirsOnly : Bool
  deriving DecidableEq

/-- The texts between the slashes of a pattern, a slash at the end not counted. A pattern without
any other text has one empty part. -/
def pieceTexts (t : Text) : List Text :=
  let ts := t.splitOn '/'
  let ts := if ts.getLast? = some [] then ts.dropLast else ts
  if ts.isEmpty then [[]] else ts

/-- The pattern that a text spells. -/
def parse? (t : Text) : Option Pattern := do
  let absolute := t.head? = some '/'
  let pieces ← (pieceTexts (if absolute then t.drop 1 else t)).mapM piece?
  return ⟨absolute, pieces, t.getLast? = some '/'⟩

/-- A text as a pattern that matches only this text. -/
def escape (t : Text) : Text :=
  t.flatMap fun c => if ['?', '*', '[', ']'].contains c then ['[', c, ']'] else [c]

/-! ### Expanding -/

/-- The path of the directory in which the program runs. -/
def here : Path := ['.']

/-- The path of what lies under a name in a directory, the program's own left unsaid. -/
def child (dir : Path) (name : Text) : Path :=
  if Path.parts dir = [.here] then name else Path.join dir name

/-- What is found, or the path of a directory that would have to be listed and cannot be. -/
abbrev Found (α : Type) := Except Path α

/-- What is found under some names below a directory at a location: the path that they lead to,
with the last of them, and then that it cannot be listed, where it would be. -/
def found (w : Workspace) (deep : Bool) (dir : Path) (l : Location) (names : List Text) :
    List (Found (Path × Text)) :=
  let path := names.foldl child dir
  names.getLast?.toList.map (fun name => .ok (path, name)) ++
    if (deep || names = []) && w.node? (l ++ names) = some .closed then [.error path] else []

/-- What is found below a directory, in order, as far as directories can be listed. With `deep`
unset, only in the directory itself. -/
def listing (w : Workspace) (deep : Bool) (dir : Path) : List (Found (Path × Text)) :=
  if w.isDirectory dir then
    (w.resolve? dir).toList.flatMap fun l =>
      (([] :: w.below l).filter fun names =>
        (deep || names.length ≤ 1) && w.isOpen l names).flatMap (found w deep dir l)
  else []

/-- What is found from each of some things on. A directory that cannot be listed stays in its
place. -/
def further {α β : Type} (f : α → List (Found β)) (as : List (Found α)) : List (Found β) :=
  as.flatMap fun
    | .ok a => f a
    | .error dir => [.error dir]

/-- The two names by which a directory reaches itself and the one above it, as far as tokens that
start with a dot match them. -/
def dots (tokens : List Token) : List Text :=
  if tokens.head? = some (.char '.') then [['.', '.'], ['.']].filter (accepts tokens) else []

/-- The paths that the parts of a pattern stand for, from a path that the parts before them
stand for. A name that is spelled out is looked up; for any other the directory is listed. -/
def expand (w : Workspace) (dirsOnly : Bool) : List Piece → Path → List (Found Path)
  | [], p => if !dirsOnly || w.isDirectory p then [.ok p] else []
  | [.anyDirs], dir =>
    further (fun e => if w.isDirectory e.1 then [.ok e.1] else []) (listing w true dir)
  | .anyDirs :: .name tokens :: ps, dir =>
    further (fun e => if accepts tokens e.2 then expand w dirsOnly ps e.1 else [])
      (listing w true dir)
  | .anyDirs :: .anyDirs :: ps, dir => expand w dirsOnly (.anyDirs :: ps) dir
  | .name tokens :: ps, dir =>
    match literal? tokens with
    | some name =>
      let reached :=
        if name = ['.'] || name = ['.', '.'] then w.isDirectory dir
        else w.contains (child dir name)
      if reached then expand w dirsOnly ps (child dir name) else []
    | none =>
      (if w.at? dir = some .directory then
        (dots tokens).flatMap fun name => expand w dirsOnly ps (Path.join dir name)
      else []) ++
        further (fun e => if accepts tokens e.2 then expand w dirsOnly ps e.1 else [])
          (listing w false dir)

/-- The paths that a pattern stands for. -/
def Pattern.paths (q : Pattern) (w : Workspace) : List (Found Path) :=
  expand w q.dirsOnly q.pieces (if q.absolute then ['/'] else here)

end Glob

end Docstring
