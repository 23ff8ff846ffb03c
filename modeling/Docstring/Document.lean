import Docstring.Item

/-!
# Documents

A document is a docstring divided into the sections of its dialect. The lines of the docstring
are read from the top: a header closes the section that is open and opens its own, and the
lines before the first header belong to the summary. Every slot of the dialect is there, in the
order of the catalog, whatever the order in which the sections are written.

A section that is opened again takes the later body. Trailing white space of a body goes, and a
body with nothing left is none.
-/

namespace Docstring

open Text

/-- What a section holds. -/
inductive Body where
  /-- Prose, if any. -/
  | text (t : Option Text)
  /-- Named items. -/
  | items (m : ItemMap)
  deriving DecidableEq

namespace Body

/-- The body of a section that has none. -/
def empty (k : Section) : Body := if k.hasItems then .items OrderedMap.empty else .text none

/-- Whether there is neither prose nor an item. -/
def isEmpty : Body → Bool
  | .text t => t.isNone
  | .items m => m.isEmpty

/-- The prose of some lines, if any is left without the white space at its end. -/
def proseOf (ls : List Line) : Option Text :=
  let t := trimEnd (joinLines ls)
  if t.isEmpty then none else some t

/-- The body that some lines make. -/
def ofLines (k : Section) (ls : List Line) : Body :=
  if k.hasItems then .items (ItemMap.parseBody (proseOf ls)) else .text (proseOf ls)

/-- The body of lines is their joined text without the white space at its end. Where nothing is left
of it the body is empty, and in a section that lists items it is divided into them. -/
theorem ofLines_eq (k : Section) (ls : List Line) :
    ofLines k ls =
      if trimEnd (joinLines ls) = [] then empty k
      else if k.hasItems then .items (ItemMap.parse (trimEnd (joinLines ls)))
      else .text (some (trimEnd (joinLines ls))) := by
  unfold ofLines proseOf
  cases trimEnd (joinLines ls) with
  | nil => rfl
  | cons c t => rfl

end Body

/-- A header with the lines under it. -/
structure Block where
  /-- The section that the header names. -/
  kind : Section
  /-- The line that names it. -/
  header : Line
  /-- The lines up to the next header. -/
  body : List Line
  deriving DecidableEq

/-- Lines divided at their headers: the lines before the first one, then a block for each. -/
def Dialect.segment (d : Dialect) : List Line → List Line × List Block
  | [] => ([], [])
  | [l] =>
    match d.matchHeader l none with
    | some (k, _) => ([], [⟨k, l, []⟩])
    | none => ([l], [])
  | l :: u :: ls =>
    match d.matchHeader l (some u) with
    | some (k, height) =>
      let below := if height = 2 then d.segment ls else d.segment (u :: ls)
      ([], ⟨k, l, below.1⟩ :: below.2)
    | none =>
      let below := d.segment (u :: ls)
      (l :: below.1, below.2)

/-- A docstring by sections. -/
structure Document where
  /-- The dialect that it is read in. -/
  dialect : Dialect
  /-- The body of each section, in the order of the catalog. -/
  sections : OrderedMap Section Body
  deriving DecidableEq

namespace Document

/-- The document of a dialect in which every section is empty. -/
def empty (d : Dialect) : Document where
  dialect := d
  sections := OrderedMap.ofList (d.slots.map fun k => (k, Body.empty k))

/-- The body of a section, where the dialect has the section. -/
def get? (doc : Document) (k : Section) : Option Body := doc.sections.get? k

/-- The prose of a section. -/
def text? (doc : Document) (k : Section) : Option Text :=
  match doc.get? k with
  | some (.text t) => t
  | _ => none

/-- The items of a section that lists items. -/
def items? (doc : Document) (k : Section) : Option ItemMap :=
  match doc.get? k with
  | some (.items m) => some m
  | _ => none

/-- Whether a section holds prose or an item. -/
def hasContent (doc : Document) (k : Section) : Bool := (doc.get? k).any fun b => !b.isEmpty

/-- The document with the body that some lines make under a section. -/
def close (doc : Document) (k : Section) (ls : List Line) : Document :=
  { doc with sections := doc.sections.insert k (Body.ofLines k ls) }

/-- The document without the content of a section. -/
def clear (doc : Document) (k : Section) : Document :=
  if k ∈ doc.sections.keys then { doc with sections := doc.sections.insert k (Body.empty k) }
  else doc

/-- A section that is closed reads as its lines make it, and any other as before. -/
@[simp] theorem get?_close (doc : Document) (j k : Section) (ls : List Line) :
    (doc.close k ls).get? j = if j = k then some (Body.ofLines k ls) else doc.get? j :=
  OrderedMap.get?_insert doc.sections k j (Body.ofLines k ls)

/-- The lines in which headers are looked for: those of the docstring in normal layout, without
white space at their ends. -/
def scanLines (doc : Text) : List Line := (lines (clean doc)).map trimEnd

/-- The document of lines: the summary first, then the blocks from top to bottom. -/
def ofLines (d : Dialect) (ls : List Line) : Document :=
  let parts := d.segment ls
  parts.2.foldl (fun doc b => doc.close b.kind b.body) ((empty d).close .shortSummary parts.1)

/-- A docstring read in a dialect. Where the dialect has no headers, the text is kept whole in
the summary. -/
def parse (d : Dialect) (doc : Option Text) : Document :=
  match doc with
  | none => empty d
  | some doc =>
    if (clean doc).isEmpty then empty d
    else match d.headerForm with
      | none => (empty d).close .shortSummary [clean doc]
      | some _ => ofLines d (scanLines doc)

/-- The headers that are met when a docstring is read, from top to bottom. -/
def headers (d : Dialect) (doc : Option Text) : List (Section × Line) :=
  match doc with
  | none => []
  | some doc =>
    if d.headerForm.isNone then []
    else (d.segment (scanLines doc)).2.map fun b => (b.kind, b.header)

end Document

end Docstring
