import Docstring.Json.Basic
import Docstring.Text.Quoted

/-!
# Writing JSON

A JSON value on several lines: each element and entry on a line of its own, two columns further
in than what holds it, and empty arrays and objects as a pair of brackets.
-/

namespace Docstring

namespace Json

/-- A control character as four hexadecimal digits, or any other character as itself. -/
def plainChar (c : Char) : Text :=
  if c.toNat < 0x20 then
    let ds := Text.hexDigits c.toNat
    ['\\', 'u'] ++ List.replicate (4 - ds.length) '0' ++ ds
  else [c]

/-- One character of a string as written. -/
def writtenChar (c : Char) : Text :=
  match c with
  | '"' => ['\\', '"']
  | '\\' => ['\\', '\\']
  | '\x08' => ['\\', 'b']
  | '\x0c' => ['\\', 'f']
  | '\n' => ['\\', 'n']
  | '\r' => ['\\', 'r']
  | '\t' => ['\\', 't']
  | c => plainChar c

/-- A text as a string. -/
def writtenText (t : Text) : Text := ['"'] ++ t.flatMap writtenChar ++ ['"']

/-- What stands at the start of a line that lies so deep. -/
def lineStart (depth : Nat) : Text := '\n' :: List.replicate (2 * depth) ' '

mutual

/-- A value that lies so deep in other values, from where its first line starts. -/
def prettyAt (depth : Nat) : Json → Text
  | .null => "null".toList
  | .bool b => if b then "true".toList else "false".toList
  | .number s => s
  | .string t => writtenText (t.getD [])
  | .array [] => "[]".toList
  | .array (j :: js) =>
    '[' :: lineStart (depth + 1) ++ prettyAt (depth + 1) j ++ prettyElements depth js ++
      lineStart depth ++ [']']
  | .object [] => ['\x7b', '\x7d']
  | .object ((k, j) :: es) =>
    '\x7b' :: lineStart (depth + 1) ++ writtenText (k.getD []) ++ [':', ' '] ++
      prettyAt (depth + 1) j ++ prettyEntries depth es ++ lineStart depth ++ ['\x7d']

/-- The elements of an array after the first one. -/
def prettyElements (depth : Nat) : List Json → Text
  | [] => []
  | j :: js =>
    ',' :: lineStart (depth + 1) ++ prettyAt (depth + 1) j ++ prettyElements depth js

/-- The entries of an object after the first one. -/
def prettyEntries (depth : Nat) : List (Option Text × Json) → Text
  | [] => []
  | (k, j) :: es =>
    ',' :: lineStart (depth + 1) ++ writtenText (k.getD []) ++ [':', ' '] ++
      prettyAt (depth + 1) j ++ prettyEntries depth es

end

/-- A value as text. -/
def pretty (j : Json) : Text := j.prettyAt 0

end Json

end Docstring
