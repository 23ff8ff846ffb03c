import Docstring.Text.Basic

/-!
# JSON values

A JSON value as it is read. Objects keep their entries in order, repeated keys included, and
numbers keep their spelling. A string may spell half of a surrogate pair, which is no character:
its text is then unknown, and only a reader that skips the string can go on.
-/

namespace Docstring

/-- A JSON value. -/
inductive Json where
  /-- The value without content. -/
  | null
  /-- A truth value. -/
  | bool (b : Bool)
  /-- A number, by its spelling. -/
  | number (spelling : Text)
  /-- A string, unless it spells half of a surrogate pair. -/
  | string (t : Option Text)
  /-- A list of values. -/
  | array (elements : List Json)
  /-- Entries under keys, in order. -/
  | object (entries : List (Option Text × Json))
  deriving Inhabited

namespace Json

/-- The string of a text. -/
def ofText (t : Text) : Json := .string (some t)

/-- The string of a text, or null for none. -/
def ofText? : Option Text → Json
  | some t => ofText t
  | none => .null

/-- The text of a string. -/
def text? : Json → Option Text
  | .string t => t
  | _ => none

/-- The elements of an array. -/
def elements? : Json → Option (List Json)
  | .array js => some js
  | _ => none

@[simp] theorem text?_ofText (t : Text) : text? (ofText t) = some t := rfl

end Json

end Docstring
