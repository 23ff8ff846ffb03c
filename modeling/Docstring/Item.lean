import Docstring.Dialect
import Docstring.OrderedMap
import Docstring.Text.Layout
import Docstring.Text.Word

/-!
# Items

Some sections list named items, such as parameters. An item starts on a line that begins with
an identifier, which stars may stand in front of; what follows, up to the next such line, is
the body of the item. Blank lines belong to the item above them.

Only the first item may also start inside its line: whatever stands before the first identifier
of the section is dropped.
-/

namespace Docstring

/-- The items of a section: the body of each name, which starts right after the name. -/
abbrev ItemMap := OrderedMap Text Text

namespace Item

open Text

/-- The name at the start of a line, stars included, and the rest of the line. -/
def start? (l : Line) : Option (Text × Line) :=
  let stars := l.takeWhile (· = '*')
  let rest := l.dropWhile (· = '*')
  if (rest.takeWhile isWord).isEmpty then none
  else some (stars ++ rest.takeWhile isWord, rest.dropWhile isWord)

/-- The first name anywhere in a line, and the rest of the line. -/
def find? : Line → Option (Text × Line)
  | [] => none
  | c :: l => (start? (c :: l)).or (find? l)

/-- The lines that still belong to the item above them, and the items that follow. -/
def group : List Line → List Line × List (Text × Text)
  | [] => ([], [])
  | l :: ls =>
    let below := group ls
    match start? l with
    | some (name, tail) => ([], (name, joinLines (tail :: below.1)) :: below.2)
    | none => (l :: below.1, below.2)

/-- The items of some lines, in the order in which they are written. -/
def ofLines : List Line → List (Text × Text)
  | [] => []
  | l :: ls =>
    match find? l with
    | some (name, tail) =>
      let below := group ls
      (name, joinLines (tail :: below.1)) :: below.2
    | none => ofLines ls

/-- A name and the rest of its line make up the line. -/
theorem append_eq_of_start? {l name tail : Line} (h : start? l = some (name, tail)) :
    name ++ tail = l := by
  rw [start?] at h
  split at h
  · simp at h
  · obtain ⟨rfl, rfl⟩ := Prod.mk.inj (Option.some.inj h)
    rw [List.append_assoc, List.takeWhile_append_dropWhile, List.takeWhile_append_dropWhile]

/-- Before the first name of a line there is only what is dropped. -/
theorem exists_append_eq_of_find? {l name tail : Line} (h : find? l = some (name, tail)) :
    ∃ front, front ++ (name ++ tail) = l := by
  induction l with
  | nil => simp [find?] at h
  | cons c l ih =>
    rw [find?, Option.or_eq_some_iff] at h
    rcases h with h | ⟨-, h⟩
    · refine ⟨[], ?_⟩
      rw [List.nil_append]
      exact append_eq_of_start? h
    · obtain ⟨front, hl⟩ := ih h
      refine ⟨c :: front, ?_⟩
      rw [List.cons_append, hl]

end Item

namespace ItemMap

open Text

/-- The items of the body of a section. A repeated name keeps its first place and takes the
later body. -/
def parse (body : Text) : ItemMap := OrderedMap.ofList (Item.ofLines (dedentedLines body))

/-- The items of a section that may have no body. -/
def parseBody : Option Text → ItemMap
  | none => OrderedMap.empty
  | some body => parse body

/-- Items as the body of a section, with the item padding of a dialect. -/
def render (d : Dialect) (items : ItemMap) : Text :=
  joinLines (items.entries.map fun e => indent d.itemPadding (e.1 ++ e.2))

/-- Items of an ancestor and a descendant as one. Within a section the descendant's are written
over the ancestor's; otherwise the descendant's replace them, unless there are none. -/
def merge (within : Bool) (ancestor descendant : ItemMap) : ItemMap :=
  if within then ancestor.overlay descendant
  else if descendant.isEmpty then ancestor else descendant

/-- A name without the stars in front of it. -/
def bareName (name : Text) : Text := name.dropWhile (· = '*')

/-- Whether an item is kept beside the given parameters: it has stars, or it names one of them,
whatever stars that one has. -/
def isLive (params : List Text) (name : Text) : Bool :=
  name.head? = some '*' || params.any fun p => bareName p = bareName name

/-- The items that are kept beside the given parameters, in order. -/
def retain (params : List Text) (items : ItemMap) : ItemMap := items.filterKeys (isLive params)

/-- The names of the items that are not kept. -/
def stale (params : List Text) (items : ItemMap) : List Text :=
  items.keys.filter fun name => !isLive params name

end ItemMap

end Docstring
