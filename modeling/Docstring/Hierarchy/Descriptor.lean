import Docstring.Hierarchy.Basic
import Docstring.Json.Parser
import Docstring.Json.Printer

/-!
# Descriptors

Hierarchies as JSON. A type or a member is an object of entries under known keys, of which only
the name has to be there. An unknown key is skipped with its value, and a known key that comes
twice is refused. The fields may also stand in an array, in the order in which they are written,
as many of them as there are.

Written out, a type leaves out empty lists, and a member leaves out parameters that are not
known; a docstring is always there.
-/

namespace Docstring

namespace Descriptor

open Json

/-! ### Keys -/

/-- The key of a name. -/
def nameKey : Text := "name".toList

/-- The key of a docstring. -/
def docKey : Text := "doc".toList

/-- The key of the types that a type extends. -/
def basesKey : Text := "bases".toList

/-- The key of the members of a type. -/
def membersKey : Text := "members".toList

/-- The key of the kind of a member. -/
def kindKey : Text := "kind".toList

/-- The key of the parameters of a member. -/
def paramsKey : Text := "params".toList

/-- The fields of a type, as they are written. -/
def typeKeys : List Text := [nameKey, docKey, basesKey, membersKey]

/-- The fields of a member, as they are written. -/
def memberKeys : List Text := [nameKey, kindKey, docKey, paramsKey]

/-! ### Writing -/

/-- An entry of an object. -/
def entry (key : Text) (j : Json) : Option Text × Json := (some key, j)

/-- A member as JSON. -/
def ofMember (m : Member) : Json :=
  .object ([entry nameKey (ofText m.name), entry kindKey (ofText m.kind.name),
      entry docKey (ofText? m.doc)] ++
    match m.params with
    | some ps => [entry paramsKey (.array (ps.map ofText))]
    | none => [])

/-- An entry that is left out where its list is empty. -/
def listEntry (key : Text) (js : List Json) : List (Option Text × Json) :=
  if js.isEmpty then [] else [entry key (.array js)]

mutual

/-- A type as JSON. -/
def ofType (t : TypeDescriptor) : Json :=
  match t with
  | ⟨name, doc, bases, members⟩ =>
    .object ([entry nameKey (ofText name), entry docKey (ofText? doc)] ++
      listEntry basesKey (ofTypes bases) ++ listEntry membersKey (members.map ofMember))

/-- Each of some types as JSON. -/
def ofTypes (ts : List TypeDescriptor) : List Json :=
  match ts with
  | [] => []
  | t :: ts => ofType t :: ofTypes ts

end

/-! ### Reading fields -/

/-- The entries of an object under known keys, unless one of them comes twice or a key is not
a text. -/
def entries? (keys : List Text) (es : List (Option Text × Json)) :
    Option (List (Text × Json)) := do
  let es ← es.mapM fun e => e.1.map fun k => (k, e.2)
  let known := es.filter fun e => keys.contains e.1
  if (known.map Prod.fst).Nodup then some known else none

/-- The elements of an array under the keys of their places, unless they are too many. -/
def positions? (keys : List Text) (js : List Json) : Option (List (Text × Json)) :=
  if js.length ≤ keys.length then some (keys.zip js) else none

/-- The fields of an object or of an array. -/
def fields? (keys : List Text) : Json → Option (List (Text × Json))
  | .object es => entries? keys es
  | .array js => positions? keys js
  | _ => none

/-- A field that may be absent or null, read as `read` says. -/
def optional? {α : Type} (read : Json → Option α) : Option Json → Option (Option α)
  | none => some none
  | some .null => some none
  | some j => (read j).map some

/-- A field that may be absent but not null. -/
def orDefault? {α : Type} (read : Json → Option α) (absent : α) : Option Json → Option α
  | none => some absent
  | some j => read j

/-- A list of which each element is read. -/
def list? {α : Type} (read : Json → Option α) (j : Json) : Option (List α) :=
  (elements? j).bind fun js => js.mapM read

/-- A kind: its name, or an object that holds null under its name. -/
def kind? : Json → Option MemberKind
  | .string t => t.bind MemberKind.ofName?
  | .object [(some k, .null)] => MemberKind.ofName? k
  | _ => none

/-! ### Reading -/

/-- The member that a value describes. -/
def member? (j : Json) : Option Member := do
  let fields ← fields? memberKeys j
  let name ← (fields.lookup nameKey).bind text?
  let kind ← orDefault? kind? .method (fields.lookup kindKey)
  let doc ← optional? text? (fields.lookup docKey)
  let params ← optional? (list? text?) (fields.lookup paramsKey)
  return ⟨name, kind, doc, params⟩

/-- The type of some fields, given the types that it extends. -/
def typeOf? (fields : List (Text × Json)) (bases : List TypeDescriptor) :
    Option TypeDescriptor := do
  let name ← (fields.lookup nameKey).bind text?
  let doc ← optional? text? (fields.lookup docKey)
  let members ← orDefault? (list? member?) [] (fields.lookup membersKey)
  return ⟨name, doc, bases, members⟩

mutual

/-- The type that a value describes. -/
def type? : Json → Option TypeDescriptor
  | .object es => do typeOf? (← entries? typeKeys es) (← basesIn? es)
  | .array js => do typeOf? (← positions? typeKeys js) (← basesAt? 2 js)
  | _ => none

/-- The types under the key of the bases. -/
def basesIn? : List (Option Text × Json) → Option (List TypeDescriptor)
  | [] => some []
  | (k, j) :: es => if k = some basesKey then types? j else basesIn? es

/-- The types at one place of an array. -/
def basesAt? : Nat → List Json → Option (List TypeDescriptor)
  | _, [] => some []
  | 0, j :: _ => types? j
  | n + 1, _ :: js => basesAt? n js

/-- The types of an array. -/
def types? : Json → Option (List TypeDescriptor)
  | .array js => typeList? js
  | _ => none

/-- The types that some values describe. -/
def typeList? : List Json → Option (List TypeDescriptor)
  | [] => some []
  | j :: js => do return (← type? j) :: (← typeList? js)

end

/-! ### Depth -/

/-- What is expected at a place of a descriptor. -/
inductive Place where
  /-- A type. -/
  | type
  /-- The types that a type extends. -/
  | bases
  /-- The members of a type. -/
  | members
  /-- A member. -/
  | member
  /-- A field without fields of its own. -/
  | field
  /-- Anything: the value is skipped. -/
  | skipped
  deriving DecidableEq

namespace Place

/-- The place under a key. -/
def under (p : Place) (key : Option Text) : Place :=
  match p with
  | .type =>
    if key = some basesKey then .bases
    else if key = some membersKey then .members
    else if key.any typeKeys.contains then .field
    else .skipped
  | .member => if key.any memberKeys.contains then .field else .skipped
  | _ => .skipped

/-- The place of the element with the given number. -/
def element (p : Place) (i : Nat) : Place :=
  match p with
  | .bases => .type
  | .members => .member
  | .type => p.under typeKeys[i]?
  | .member => p.under memberKeys[i]?
  | _ => .skipped

end Place

mutual

/-- How deep arrays and objects lie in each other at a place, skipped values apart. -/
def depth (p : Place) : Json → Nat
  | .object es => if p = .skipped then 0 else entriesDepth p es + 1
  | .array js => if p = .skipped then 0 else elementsDepth p 0 js + 1
  | _ => 0

/-- The depth of the deepest entry. -/
def entriesDepth (p : Place) : List (Option Text × Json) → Nat
  | [] => 0
  | (k, j) :: es => max (depth (p.under k) j) (entriesDepth p es)

/-- The depth of the deepest element, the first one having the given number. -/
def elementsDepth (p : Place) (i : Nat) : List Json → Nat
  | [] => 0
  | j :: js => max (depth (p.element i) j) (elementsDepth p (i + 1) js)

end

/-- The greatest depth of a descriptor in a file. -/
def maxDepth : Nat := 127

/-! ### Files -/

/-- The type that a file describes. -/
def read? (t : Text) : Option TypeDescriptor := do
  let j ← Json.parse? t
  if depth .type j ≤ maxDepth then type? j else none

/-- A type as the text of a file. -/
def write (t : TypeDescriptor) : Text := (ofType t).pretty ++ ['\n']

end Descriptor

end Docstring
