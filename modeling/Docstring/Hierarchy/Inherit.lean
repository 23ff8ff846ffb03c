import Docstring.Hierarchy.Basic
import Docstring.Registry

/-!
# Inheritance

Rewriting the docstrings of a hierarchy in a style. The types that a type extends come first, so
each ancestor already has what it inherits when a descendant looks at it. The docstring of a type
is merged with that of every ancestor in turn. The docstring of a member is merged with that of
the nearest ancestor that documents a member of the same name, or with all of them in turn.
-/

namespace Docstring

open Text

/-- Which ancestors a member inherits from. -/
inductive Lookup where
  /-- The nearest one that documents the member. -/
  | nearest
  /-- Every one that documents the member, nearest first. -/
  | chain
  deriving DecidableEq, Repr, Inhabited

/-- How a hierarchy is rewritten. -/
structure Inheritance where
  /-- The way two docstrings are merged. -/
  style : Style
  /-- Whether special members inherit as well. -/
  includeSpecial : Bool
  /-- Which ancestors a member inherits from. -/
  lookup : Lookup

namespace Inheritance

/-- A docstring merged with those of some ancestors in turn, the result so far taking the place
of the descendant's. -/
def fold (s : Style) (params : Option (List Text)) (ancestors : List (Option Text))
    (doc : Option Text) : Option Text :=
  ancestors.foldl (fun acc a => s.merge params a acc) doc

/-- The docstring of a type among its ancestors. -/
def typeDoc (s : Style) (ancestors : List TypeDescriptor) (doc : Option Text) : Option Text :=
  fold s none (ancestors.map TypeDescriptor.doc) doc

/-- The docstrings, not blank, that ancestors give the member of a name, nearest first. -/
def documented (ancestors : List TypeDescriptor) (name : Text) : List Text :=
  ancestors.filterMap fun t =>
    ((t.member? name).bind Member.doc).filter fun doc => !isBlank doc

/-- Whether a member is rewritten at all. -/
def applies (o : Inheritance) (m : Member) : Bool :=
  m.kind.inheritsDocs && (o.includeSpecial || !m.isSpecial)

/-- The ancestors' docstrings that a member is merged with. -/
def sources (o : Inheritance) (ancestors : List TypeDescriptor) (m : Member) : List Text :=
  if o.applies m then
    match o.lookup with
    | .nearest => (documented ancestors m.name).take 1
    | .chain => documented ancestors m.name
  else []

/-- A member rewritten among the ancestors of its type. -/
def member (o : Inheritance) (ancestors : List TypeDescriptor) (m : Member) : Member :=
  { m with doc := fold o.style m.params ((o.sources ancestors m).map some) m.doc }

mutual

/-- A type rewritten, after the types that it extends. -/
def rewrite (o : Inheritance) (t : TypeDescriptor) : TypeDescriptor :=
  match t with
  | ⟨name, doc, bases, members⟩ =>
    let bases := rewriteAll o bases
    let ancestors := TypeDescriptor.addAll bases []
    ⟨name, typeDoc o.style ancestors doc, bases, members.map (o.member ancestors)⟩

/-- Each of some types rewritten. -/
def rewriteAll (o : Inheritance) (ts : List TypeDescriptor) : List TypeDescriptor :=
  match ts with
  | [] => []
  | t :: ts => rewrite o t :: rewriteAll o ts

end

/-- No ancestor changes nothing. -/
@[simp] theorem fold_nil (s : Style) (params : Option (List Text)) (doc : Option Text) :
    fold s params [] doc = doc := rfl

/-- The first ancestor is merged first. -/
theorem fold_cons (s : Style) (params : Option (List Text)) (a : Option Text)
    (as : List (Option Text)) (x : Option Text) :
    fold s params (a :: as) x = fold s params as (s.merge params a x) := rfl

/-- A member that is merged with none stays as it is. -/
theorem member_eq_self {o : Inheritance} {ancestors : List TypeDescriptor} {m : Member}
    (h : o.sources ancestors m = []) : o.member ancestors m = m := by
  simp [member, h]

theorem rewriteAll_eq_map (o : Inheritance) (ts : List TypeDescriptor) :
    rewriteAll o ts = ts.map (rewrite o) := by
  induction ts with
  | nil => rfl
  | cons t ts ih => simp [rewriteAll, ih]

end Inheritance

/-- How a hierarchy is to be rewritten, the style not yet looked up. -/
structure InheritRequest where
  /-- The style. -/
  style : StyleRef
  /-- Whether special members inherit as well. -/
  includeSpecial : Bool
  /-- Which ancestors a member inherits from. -/
  lookup : Lookup

/-- A hierarchy rewritten in a style of a registry. -/
def TypeDescriptor.inherit (t : TypeDescriptor) (q : InheritRequest) (r : Registry) :
    Except StyleError TypeDescriptor :=
  (r.resolve q.style).map fun s => Inheritance.rewrite ⟨s, q.includeSpecial, q.lookup⟩ t

/-- The docstring of a member merged with one docstring of an ancestor. -/
def Member.inherit (m : Member) (s : Style) (ancestor : Option Text) : Option Text :=
  s.merge m.params ancestor m.doc

end Docstring
