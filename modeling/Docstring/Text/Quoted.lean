import Docstring.Text.Printable

/-!
# Quoted texts

A text between double quotes, on one line and in printable characters, as a log shows it.
-/

namespace Docstring

namespace Text

/-- The lower-case hexadecimal digits of a number, without leading zeros. -/
def hexDigits (n : Nat) : Text := Nat.toDigits 16 n

/-- One character between quotes. -/
def quotedChar (c : Char) : Text :=
  match c with
  | '\x00' => ['\\', '0']
  | '\t' => ['\\', 't']
  | '\r' => ['\\', 'r']
  | '\n' => ['\\', 'n']
  | '\\' => ['\\', '\\']
  | '"' => ['\\', '"']
  | c => if isPrintable c then [c] else ['\\', 'u', '\x7b'] ++ hexDigits c.toNat ++ ['\x7d']

/-- A text between quotes. -/
def quoted (t : Text) : Text := ['"'] ++ t.flatMap quotedChar ++ ['"']

end Text

end Docstring
