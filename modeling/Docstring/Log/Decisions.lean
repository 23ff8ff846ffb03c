import Docstring.Hierarchy.Inherit
import Docstring.Log.Event

/-!
# Decisions

The events of merges and of inheritance, in the order in which the decisions are made: the
headers or titles of the ancestor, then those of the descendant, then what is dropped. A merge
with a blank side decides nothing.
-/

namespace Docstring

/-! ### Merging -/

namespace Merge

/-- The items that a merge of two documents drops. -/
def staleItems (d : Dialect) (policy : Policy) (params : Option (List Text))
    (ancestor descendant : Document) : List Text :=
  match params with
  | none => []
  | some ps =>
    (d.sections.filter Section.isSignatureChecked).flatMap fun k =>
      (items (mergesWithin d policy k) k ancestor descendant).stale ps

/-- The events of a merge by sections. -/
def sectionedEvents (d : Dialect) (policy : Policy) (params : Option (List Text))
    (ancestor descendant : Text) : List Event :=
  let headers := (Document.headers d (some ancestor) ++ Document.headers d (some descendant)).map
    fun h => Event.header h.1 h.2
  let ancestor := Document.parse d (some ancestor)
  let descendant := Document.parse d (some descendant)
  let raises := if raisesIsStale ancestor descendant then [Event.raisesDropped] else []
  let stale := staleItems d policy params (withoutStaleRaises ancestor descendant) descendant
  headers ++ raises ++ stale.map .itemDropped

/-- The events of a merge by titles. -/
def titledEvents (ancestor descendant : Text) : List Event :=
  (Outline.titles (some ancestor) ++ Outline.titles (some descendant)).map .title

/-- The events of a merge. Where one side is blank there are none. -/
def events (d : Dialect) (policy : Policy) (params : Option (List Text))
    (ancestor descendant : Option Text) : List Event :=
  match ancestor, descendant with
  | some a, some b =>
    if Text.isBlank a || Text.isBlank b then []
    else match d with
      | .parent => []
      | .rest => titledEvents a b
      | d => sectionedEvents d policy params a b
  | _, _ => []

end Merge

/-- The events of a style on two docstrings. -/
def Style.events (s : Style) (params : Option (List Text)) (ancestor descendant : Option Text) :
    List Event :=
  match s with
  | .builtin d policy => Merge.events d policy params ancestor descendant
  | .custom _ => []

/-! ### Inheritance -/

namespace Inheritance

/-- The events of a docstring merged with those of some ancestors in turn. -/
def foldEvents (s : Style) (params : Option (List Text)) (ancestors : List (Option Text))
    (doc : Option Text) : List Event :=
  match ancestors with
  | [] => []
  | a :: as => s.events params a doc ++ foldEvents s params as (s.merge params a doc)

/-- The events of a member rewritten among the ancestors of its type. -/
def memberEvents (o : Inheritance) (ancestors : List TypeDescriptor) (m : Member) : List Event :=
  let sources := o.sources ancestors m
  if sources.isEmpty then []
  else foldEvents o.style m.params (sources.map some) m.doc ++ [.memberInherited m.name]

mutual

/-- The events of a type rewritten, those of the types that it extends first. -/
def events (o : Inheritance) (t : TypeDescriptor) : List Event :=
  match t with
  | ⟨_, doc, bases, members⟩ =>
    let ancestors := TypeDescriptor.addAll (rewriteAll o bases) []
    allEvents o bases ++ foldEvents o.style none (ancestors.map TypeDescriptor.doc) doc ++
      members.flatMap (o.memberEvents ancestors)

/-- The events of each of some types rewritten. -/
def allEvents (o : Inheritance) (ts : List TypeDescriptor) : List Event :=
  match ts with
  | [] => []
  | t :: ts => events o t ++ allEvents o ts

end

end Inheritance

end Docstring
