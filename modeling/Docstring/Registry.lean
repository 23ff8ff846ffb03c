import Docstring.Sorted
import Docstring.Style

/-!
# Registries

A registry keeps styles under names. Only a style that keeps the rule on absent docstrings can be
registered; a style that is given with a call is held to the same rule when it is resolved.
-/

namespace Docstring

/-- Styles by name. -/
structure Registry where
  /-- The style of each name. -/
  styles : OrderedMap Text Style

namespace Registry

/-- The built-in styles. -/
def builtins : List (Text × Dialect × Policy) :=
  [("parent".toList, .parent, .replace),
   ("numpy".toList, .numpy, .replace),
   ("numpy_with_merge".toList, .numpy, .mergeWithin),
   ("numpy_napoleon".toList, .numpyNapoleon, .replace),
   ("numpy_napoleon_with_merge".toList, .numpyNapoleon, .mergeWithin),
   ("google".toList, .googleNapoleon, .replace),
   ("google_with_merge".toList, .googleNapoleon, .mergeWithin),
   ("reST".toList, .rest, .replace)]

/-- The registry without styles. -/
def empty : Registry := ⟨OrderedMap.empty⟩

/-- The registry of the built-in styles. -/
def withBuiltins : Registry :=
  ⟨OrderedMap.ofList (builtins.map fun b => (b.1, .builtin b.2.1 b.2.2))⟩

/-- The order of names, character by character. -/
def compareNames (a b : Text) : Ordering := List.compareLex compare a b

/-- The registered names in ascending order. -/
def names (r : Registry) : List Text := Sorted.ofList compareNames r.styles.keys

/-- Whether a style is registered under a name. -/
def contains (r : Registry) (name : Text) : Bool := (r.styles.get? name).isSome

/-- The registry with a style under a name, in place of any that it had. -/
def register (r : Registry) (name : Text) (s : Style) : Except StyleError Registry :=
  (s.validate name).map fun _ => ⟨r.styles.insert name s⟩

/-- The style of a name, if any, and the registry without it. -/
def unregister (r : Registry) (name : Text) : Option Style × Registry :=
  (r.styles.get? name, ⟨r.styles.erase name⟩)

/-- The name under which a style given with the call appears in errors. -/
def directName : Text := "<custom>".toList

/-- The style that a reference stands for. -/
def resolve (r : Registry) : StyleRef → Except StyleError Style
  | .named name =>
    match r.styles.get? name with
    | some s => .ok s
    | none => .error (.unknown name r.names)
  | .direct s => (s.validate directName).map fun _ => s

end Registry

end Docstring
