import Docstring.Merge

/-!
# Styles

A style is a way to merge the docstring of an ancestor into that of a descendant: a dialect with
a policy, or a function of the caller's own. Every style gives no docstring where both sides are
absent. A function that breaks this rule is refused, both when it is registered under a name and
when it is used without one.
-/

namespace Docstring

open Text

/-- What a function of the caller's own answers. -/
inductive Reply where
  /-- A docstring, or none. -/
  | doc (t : Option Text)
  /-- No answer at all. -/
  | crash
  deriving DecidableEq

/-- A way to merge two docstrings. -/
inductive Style where
  /-- A dialect with a policy. -/
  | builtin (d : Dialect) (policy : Policy)
  /-- A function of the caller's own. -/
  | custom (f : Option Text → Option Text → Reply)

/-- A style as callers name it. -/
inductive StyleRef where
  /-- A registered style. -/
  | named (name : Text)
  /-- A style given with the call. -/
  | direct (s : Style)

/-- The style that is used where none is named. -/
def StyleRef.default : StyleRef := named "parent".toList

/-- Why a style cannot be used. -/
inductive StyleError where
  /-- No style is registered under the name. -/
  | unknown (name : Text) (available : List Text)
  /-- The style answers where both docstrings are absent. -/
  | answersAbsent (name : Text)
  /-- The style crashes where both docstrings are absent. -/
  | crashesOnAbsent (name : Text)
  deriving DecidableEq

namespace StyleError

/-- The text of an error about a style that breaks the rule. -/
def badSignature (name reason : Text) : Text :=
  "bad style signature for '".toList ++ name ++ "': ".toList ++ reason

/-- The text of an error. -/
def message : StyleError → Text
  | unknown name available =>
    "no such style: ".toList ++ name ++ ". Available styles: ".toList ++
      ", ".toList.intercalate available
  | answersAbsent name =>
    badSignature name "returned a docstring when both inputs were absent".toList
  | crashesOnAbsent name => badSignature name "panicked when both inputs were absent".toList

end StyleError

namespace Style

/-- What a style answers for an ancestor and a descendant. Only a built-in style can look at the
descendant's parameters. -/
def reply (s : Style) (params : Option (List Text)) (ancestor descendant : Option Text) : Reply :=
  match s with
  | builtin d policy => .doc (Merge.docs d policy params ancestor descendant)
  | custom f => f ancestor descendant

/-- The docstring that a style gives, none where it crashes. -/
def merge (s : Style) (params : Option (List Text)) (ancestor descendant : Option Text) :
    Option Text :=
  match s.reply params ancestor descendant with
  | .doc t => t
  | .crash => none

/-- Whether a style keeps the rule on absent docstrings; the name is for the error. -/
def validate (name : Text) (s : Style) : Except StyleError Unit :=
  match s.reply none none none with
  | .doc none => .ok ()
  | .doc (some _) => .error (.answersAbsent name)
  | .crash => .error (.crashesOnAbsent name)

end Style

end Docstring
