import Docstring.Text.Basic

/-!
# Hierarchies

A type with the members that it declares and, nested in it, the types that it extends. Types and
members carry docstrings, which may be absent.
-/

namespace Docstring

/-- What a member is. -/
inductive MemberKind where
  /-- A method of instances. -/
  | method
  /-- A method of the type. -/
  | classMethod
  /-- A method that takes neither. -/
  | staticMethod
  /-- A computed attribute. -/
  | property
  /-- A function. -/
  | function
  /-- Plain data. -/
  | data
  deriving DecidableEq, Repr, Inhabited

namespace MemberKind

/-- The name of a kind in a descriptor. -/
def name : MemberKind → Text
  | method => "method".toList
  | classMethod => "class_method".toList
  | staticMethod => "static_method".toList
  | property => "property".toList
  | function => "function".toList
  | data => "attribute".toList

/-- Every kind. -/
def all : List MemberKind := [method, classMethod, staticMethod, property, function, data]

/-- The kind of a name. -/
def ofName? (t : Text) : Option MemberKind := all.find? fun k => k.name = t

/-- Plain data is never documented by inheritance. -/
def inheritsDocs (k : MemberKind) : Bool := k ≠ data

/-- The name of a kind is read as the kind. -/
theorem ofName?_name (k : MemberKind) : ofName? k.name = some k := by cases k <;> decide

end MemberKind

/-- A member of a type. -/
structure Member where
  /-- Its name. -/
  name : Text
  /-- What it is. -/
  kind : MemberKind
  /-- Its docstring. -/
  doc : Option Text
  /-- The names of its parameters, where they are known. -/
  params : Option (List Text)
  deriving DecidableEq, Inhabited

/-- Whether a member is one of those that a language calls by itself: its name has two low lines
at either end, and something between them. -/
def Member.isSpecial (m : Member) : Bool :=
  4 < m.name.length && ['_', '_'].isPrefixOf m.name && ['_', '_'].isSuffixOf m.name

/-- A type. -/
structure TypeDescriptor where
  /-- Its name. -/
  name : Text
  /-- Its docstring. -/
  doc : Option Text
  /-- The types that it extends, in the order of its declaration. -/
  bases : List TypeDescriptor
  /-- The members that it declares itself. -/
  members : List Member
  deriving Inhabited

namespace TypeDescriptor

/-- The first member of a name that a type declares itself. -/
def member? (t : TypeDescriptor) (name : Text) : Option Member :=
  t.members.find? fun m => m.name = name

/-! ### Ancestors -/

mutual

/-- A list of types with the ancestors of a type added that it lacks, by name. -/
def addAncestors (t : TypeDescriptor) (found : List TypeDescriptor) : List TypeDescriptor :=
  match t with
  | ⟨_, _, bases, _⟩ => addAll bases found

/-- A list of types with each of some types added, and after it its ancestors, unless the list
has a type of that name. -/
def addAll (ts : List TypeDescriptor) (found : List TypeDescriptor) : List TypeDescriptor :=
  match ts with
  | [] => found
  | t :: ts =>
    addAll ts
      (if found.any fun f => f.name = t.name then found else addAncestors t (found ++ [t]))

end

/-- The ancestors of a type in the order of resolution: each base, and after it its own
ancestors, depth first. A type that is reached twice keeps its first place. -/
def ancestors (t : TypeDescriptor) : List TypeDescriptor := t.addAncestors []

end TypeDescriptor

end Docstring
