import Docstring.Json.Basic

/-!
# Reading JSON

Strict JSON: one value with white space around it and nothing else. A string holds no raw
control character, a number no leading zero, and no comma stands before a closing bracket. A
surrogate pair that a string spells as two escapes is one character.
-/

namespace Docstring

namespace Json

/-- The four characters that may stand between tokens. -/
def isSeparator (c : Char) : Bool := c = ' ' || c = '\t' || c = '\n' || c = '\r'

/-- A text from its first token on. -/
def skip (t : Text) : Text := t.dropWhile isSeparator

/-! ### Strings -/

/-- The value of a hexadecimal digit. -/
def hexValue? (c : Char) : Option Nat :=
  if '0' ≤ c && c ≤ '9' then some (c.toNat - '0'.toNat)
  else if 'a' ≤ c && c ≤ 'f' then some (c.toNat - 'a'.toNat + 10)
  else if 'A' ≤ c && c ≤ 'F' then some (c.toNat - 'A'.toNat + 10)
  else none

/-- The number of four hexadecimal digits. -/
def hexNumber? (a b c d : Char) : Option Nat := do
  let a ← hexValue? a
  let b ← hexValue? b
  let c ← hexValue? c
  let d ← hexValue? d
  return ((a * 16 + b) * 16 + c) * 16 + d

/-- The character of an escape that is one character long. -/
def escaped? (c : Char) : Option Char :=
  match c with
  | '"' => some '"'
  | '\\' => some '\\'
  | '/' => some '/'
  | 'b' => some '\x08'
  | 'f' => some '\x0c'
  | 'n' => some '\n'
  | 'r' => some '\r'
  | 't' => some '\t'
  | _ => none

/-- What a string spells up to its closing quote, as code points and halves of surrogate pairs,
and the text after the quote. -/
def units : Text → Option (List Nat × Text)
  | [] => none
  | '"' :: t => some ([], t)
  | '\\' :: 'u' :: a :: b :: c :: d :: t => do
    let n ← hexNumber? a b c d
    let (us, t) ← units t
    return (n :: us, t)
  | '\\' :: c :: t => do
    let c ← escaped? c
    let (us, t) ← units t
    return (c.toNat :: us, t)
  | c :: t => do
    if c = '\\' || c.toNat < 0x20 then none
    let (us, t) ← units t
    return (c.toNat :: us, t)

/-- The first half of a surrogate pair. -/
def isHighHalf (n : Nat) : Bool := 0xD800 ≤ n && n ≤ 0xDBFF

/-- The second half of a surrogate pair. -/
def isLowHalf (n : Nat) : Bool := 0xDC00 ≤ n && n ≤ 0xDFFF

/-- The character of the two halves of a pair. -/
def ofHalves (high low : Nat) : Char :=
  Char.ofNat (0x10000 + (high - 0xD800) * 0x400 + (low - 0xDC00))

/-- The text of units, unless a half stands alone. -/
def ofUnits : List Nat → Option Text
  | [] => some []
  | u :: v :: us =>
    if isHighHalf u && isLowHalf v then (ofUnits us).map (ofHalves u v :: ·)
    else if isHighHalf u || isLowHalf u then none
    else (ofUnits (v :: us)).map (Char.ofNat u :: ·)
  | [u] => if isHighHalf u || isLowHalf u then none else some [Char.ofNat u]

/-! ### Numbers -/

/-- One digit or more, and what follows them. -/
def digits? (t : Text) : Option (Text × Text) :=
  let ds := t.takeWhile Char.isDigit
  if ds.isEmpty then none else some (ds, t.dropWhile Char.isDigit)

/-- A sign that may be absent, and what follows it. -/
def sign (allowed : List Char) : Text → Text × Text
  | [] => ([], [])
  | c :: t => if allowed.contains c then ([c], t) else ([], c :: t)

/-- The digits before the point: a zero alone, or digits that start with none. -/
def whole? : Text → Option (Text × Text)
  | '0' :: t => some (['0'], t)
  | t => digits? t

/-- The digits after the point, with the point, if there are any. -/
def fraction? : Text → Option (Text × Text)
  | '.' :: t => (digits? t).map fun r => ('.' :: r.1, r.2)
  | t => some ([], t)

/-- The power of ten, with its letter, if there is one. -/
def exponent? : Text → Option (Text × Text)
  | [] => some ([], [])
  | c :: t =>
    if c = 'e' || c = 'E' then
      let (s, t) := sign ['+', '-'] t
      (digits? t).map fun r => (c :: s ++ r.1, r.2)
    else some ([], c :: t)

/-- The spelling of a number at the start of a text, and what follows it. -/
def number? (t : Text) : Option (Text × Text) := do
  let (s, t) := sign ['-'] t
  let (w, t) ← whole? t
  let (f, t) ← fraction? t
  let (e, t) ← exponent? t
  return (s ++ w ++ f ++ e, t)

/-! ### Values -/

/-- A text without a word in front of it. -/
def dropWord? (word t : Text) : Option Text :=
  if word.isPrefixOf t then some (t.drop word.length) else none

mutual

/-- The value at the start of a text, and what follows it. The first argument bounds the steps
that are taken. -/
def value? : Nat → Text → Option (Json × Text)
  | 0, _ => none
  | n + 1, t =>
    match skip t with
    | '"' :: t => (units t).map fun r => (.string (ofUnits r.1), r.2)
    | '[' :: t =>
      match skip t with
      | ']' :: t => some (.array [], t)
      | t => (elementsFrom? n t).map fun r => (.array r.1, r.2)
    | '\x7b' :: t =>
      match skip t with
      | '\x7d' :: t => some (.object [], t)
      | t => (entriesFrom? n t).map fun r => (.object r.1, r.2)
    | 'n' :: t => (dropWord? "ull".toList t).map fun r => (.null, r)
    | 't' :: t => (dropWord? "rue".toList t).map fun r => (.bool true, r)
    | 'f' :: t => (dropWord? "alse".toList t).map fun r => (.bool false, r)
    | t => (number? t).map fun r => (.number r.1, r.2)

/-- One element or more, up to the closing bracket of an array, and what follows it. -/
def elementsFrom? : Nat → Text → Option (List Json × Text)
  | 0, _ => none
  | n + 1, t => do
    let (j, t) ← value? n t
    match skip t with
    | ',' :: t =>
      let (js, t) ← elementsFrom? n t
      return (j :: js, t)
    | ']' :: t => return ([j], t)
    | _ => none

/-- One entry or more, up to the closing brace of an object, and what follows it. -/
def entriesFrom? : Nat → Text → Option (List (Option Text × Json) × Text)
  | 0, _ => none
  | n + 1, t => do
    match skip t with
    | '"' :: t =>
      let (us, t) ← units t
      match skip t with
      | ':' :: t =>
        let (j, t) ← value? n t
        match skip t with
        | ',' :: t =>
          let (es, t) ← entriesFrom? n t
          return ((ofUnits us, j) :: es, t)
        | '\x7d' :: t => return ([(ofUnits us, j)], t)
        | _ => none
      | _ => none
    | _ => none

end

/-- The value that a text holds. Each character is reached in two steps at most. -/
def parse? (t : Text) : Option Json := do
  let (j, rest) ← value? (2 * t.length + 2) t
  if (skip rest).isEmpty then some j else none

end Json

end Docstring
