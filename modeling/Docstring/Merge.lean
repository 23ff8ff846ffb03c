import Docstring.Document
import Docstring.Outline

/-!
# Merging

The docstring of an ancestor and that of a descendant as one. Where both are blank there is
none, and where one of them is, the other is kept to the letter. Otherwise it goes by dialect:
sections are merged one by one and written in the order of the catalog, outlines are merged by
title, and a docstring without structure is the descendant's.
-/

namespace Docstring

open Text

/-- What becomes of a section that both sides have. -/
inductive Policy where
  /-- The descendant's replaces the ancestor's. -/
  | replace
  /-- Both stay, the ancestor's first, save for sections that are always replaced. -/
  | mergeWithin
  deriving DecidableEq, Repr

/-- The policy that merges within sections or not. -/
def Policy.ofFlag (within : Bool) : Policy := if within then mergeWithin else replace

namespace Merge

/-! ### Sections -/

/-- The prose of two sections as one. -/
def prose (within : Bool) (ancestor descendant : Option Text) : Option Text :=
  match ancestor, descendant with
  | some a, some d => some (if within then a ++ '\n' :: d else d)
  | none, some d => some d
  | a, none => a

/-- Whether a document tells what a call gives back. -/
def produces (doc : Document) : Bool := doc.hasContent .returns || doc.hasContent .yields

/-- Whether the ancestor tells only what it raises where the descendant tells what it gives
back. Such an ancestor is taken not to raise any more. -/
def raisesIsStale (ancestor descendant : Document) : Bool :=
  ancestor.hasContent .raises && !produces ancestor && produces descendant

/-- The ancestor as the merge takes it. -/
def withoutStaleRaises (ancestor descendant : Document) : Document :=
  if raisesIsStale ancestor descendant then ancestor.clear .raises else ancestor

/-- Whether a section of a dialect is merged within. -/
def mergesWithin (d : Dialect) (policy : Policy) (k : Section) : Bool :=
  policy = .mergeWithin && !d.unmergeable.contains k

/-- The items of a section on both sides as one, before any are dropped. -/
def items (within : Bool) (k : Section) (ancestor descendant : Document) : ItemMap :=
  ItemMap.merge within ((ancestor.items? k).getD OrderedMap.empty)
    ((descendant.items? k).getD OrderedMap.empty)

/-- The items that are kept beside the parameters, where the section is held against them. -/
def liveItems (params : Option (List Text)) (k : Section) (m : ItemMap) : ItemMap :=
  match params with
  | some ps => if k.isSignatureChecked then m.retain ps else m
  | none => m

/-- The merged body of a section as it is written, if there is one. -/
def body (d : Dialect) (policy : Policy) (params : Option (List Text))
    (ancestor descendant : Document) (k : Section) : Option Text :=
  let within := mergesWithin d policy k
  if k.hasItems then
    let m := liveItems params k (items within k ancestor descendant)
    if m.isEmpty then none else some (m.render d)
  else prose within (ancestor.text? k) (descendant.text? k)

/-- The sections of two documents as they are written, header and body, in order. -/
def sections (d : Dialect) (policy : Policy) (params : Option (List Text))
    (ancestor descendant : Document) : List Text :=
  d.sections.filterMap fun k =>
    (body d policy params ancestor descendant k).map (d.renderHeader k ++ ·)

/-- Sections as one docstring, a blank line between each two. -/
def joinSections (ts : List Text) : Option Text :=
  if ts.isEmpty then none else some (['\n', '\n'].intercalate ts)

/-- Two docstrings of a dialect with sections as one. -/
def sectioned (d : Dialect) (policy : Policy) (params : Option (List Text))
    (ancestor descendant : Text) : Option Text :=
  let descendant := Document.parse d (some descendant)
  let ancestor := withoutStaleRaises (Document.parse d (some ancestor)) descendant
  joinSections (sections d policy params ancestor descendant)

/-! ### Outlines -/

/-- Two outlines as one: the descendant's written over the ancestor's. Front matter is the
descendant's where it has a body, else the ancestor's where that has one, else there is none. -/
def outlines (ancestor descendant : Outline) : Outline :=
  let merged := ancestor.overlay descendant
  if descendant.front?.any Chapter.hasBody then merged
  else
    match ancestor.front? with
    | some front => if front.hasBody then merged.insert [] front else merged.erase []
    | none => merged.erase []

/-- Two docstrings with titles as one. -/
def titled (ancestor descendant : Text) : Option Text :=
  let t := (outlines (Outline.parse (some ancestor)) (Outline.parse (some descendant))).render
  if t.isEmpty then none else some t

/-! ### Docstrings -/

/-- Two docstrings that are both not blank, as one. -/
def visible (d : Dialect) (policy : Policy) (params : Option (List Text))
    (ancestor descendant : Text) : Option Text :=
  match d with
  | .parent => some descendant
  | .rest => titled ancestor descendant
  | d => sectioned d policy params ancestor descendant

/-- Two docstrings as one. The parameters are those of the descendant, where they are known. -/
def docs (d : Dialect) (policy : Policy) (params : Option (List Text))
    (ancestor descendant : Option Text) : Option Text :=
  match ancestor, descendant with
  | none, none => none
  | some a, none => if isBlank a then none else some a
  | none, some b => if isBlank b then none else some b
  | some a, some b =>
    match isBlank a, isBlank b with
    | true, true => none
    | false, true => some a
    | true, false => some b
    | false, false => visible d policy params a b

/-! ### Blank sides -/

@[simp] theorem docs_none_none (d : Dialect) (policy : Policy) (params : Option (List Text)) :
    docs d policy params none none = none := rfl

/-- Two blank sides merge to none. -/
theorem docs_of_blank {d : Dialect} {policy : Policy} {params : Option (List Text)}
    {ancestor descendant : Option Text} (ha : isBlankDoc ancestor = true)
    (hd : isBlankDoc descendant = true) : docs d policy params ancestor descendant = none := by
  cases ancestor <;> cases descendant <;> simp_all [docs, isBlankDoc]

/-- An ancestor beside a blank descendant is kept to the letter. -/
theorem docs_of_blank_right {d : Dialect} {policy : Policy} {params : Option (List Text)}
    {a : Text} {descendant : Option Text} (ha : isBlank a = false)
    (hd : isBlankDoc descendant = true) : docs d policy params (some a) descendant = some a := by
  cases descendant <;> simp_all [docs, isBlankDoc]

/-- A descendant beside a blank ancestor is kept to the letter. -/
theorem docs_of_blank_left {d : Dialect} {policy : Policy} {params : Option (List Text)}
    {ancestor : Option Text} {b : Text} (ha : isBlankDoc ancestor = true)
    (hb : isBlank b = false) : docs d policy params ancestor (some b) = some b := by
  cases ancestor <;> simp_all [docs, isBlankDoc]

/-- Two visible sides merge as the dialect says. -/
theorem docs_of_visible {d : Dialect} {policy : Policy} {params : Option (List Text)}
    {a b : Text} (ha : isBlank a = false) (hb : isBlank b = false) :
    docs d policy params (some a) (some b) = visible d policy params a b := by
  simp [docs, ha, hb]

end Merge

end Docstring
