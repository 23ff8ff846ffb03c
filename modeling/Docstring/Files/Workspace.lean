import Docstring.Files.Path
import Docstring.OrderedMap

/-!
# Workspaces

A workspace is a tree of files together with the directory in which a program runs. What lies
where is listed by location, the names on the way from the root; paths are resolved from the
directory of the program. Every name on the way to a location has to be a directory.
-/

namespace Docstring

/-- The names on the way from the root. -/
abbrev Location := List Text

/-- What lies at a location. -/
inductive Node where
  /-- A directory. -/
  | directory
  /-- A directory whose names cannot be listed. What lies in it is reached by name all the same. -/
  | closed
  /-- A file that holds a text. -/
  | text (t : Text)
  /-- A file that holds no text. -/
  | binary
  deriving DecidableEq

/-- Whether something else can lie below. -/
def Node.isDirectory : Node → Bool
  | directory | closed => true
  | text _ | binary => false

/-- Files and directories, and the directory in which paths start. -/
structure Workspace where
  /-- What lies at each location below the root. -/
  nodes : OrderedMap Location Node
  /-- Where paths start that are not absolute. -/
  home : Location
  deriving DecidableEq

namespace Workspace

/-- What lies at a location. The root is always there. -/
def node? (w : Workspace) (l : Location) : Option Node :=
  if l = [] then some .directory else w.nodes.get? l

/-- Whether a directory lies at a location. -/
def hasDirectory (w : Workspace) (l : Location) : Bool := (w.node? l).any Node.isDirectory

/-- The workspace with something put at a location. -/
def put (w : Workspace) (l : Location) (n : Node) : Workspace :=
  { w with nodes := w.nodes.insert l n }

/-! ### Resolving -/

/-- The location that pieces of a path lead to. -/
def walk? (w : Workspace) (l : Location) : List Text → Option Location
  | [] => some l
  | t :: ts =>
    if w.hasDirectory l then
      match Path.part? t with
      | some (.name t) => if (w.node? (l ++ [t])).isSome then w.walk? (l ++ [t]) ts else none
      | some .up => w.walk? l.dropLast ts
      | _ => w.walk? l ts
    else none

/-- Where the walk along a path starts. -/
def start (w : Workspace) (p : Path) : Location := if Path.isAbsolute p then [] else w.home

/-- The location of a path at which something lies. -/
def resolve? (w : Workspace) (p : Path) : Option Location :=
  if p = [] then none else w.walk? (w.start p) (Path.pieces p)

/-- What lies at a path. -/
def at? (w : Workspace) (p : Path) : Option Node := (w.resolve? p).bind w.node?

/-- Whether anything lies at a path. -/
def contains (w : Workspace) (p : Path) : Bool := (w.at? p).isSome

/-- Whether a directory lies at a path. -/
def isDirectory (w : Workspace) (p : Path) : Bool := (w.at? p).any Node.isDirectory

/-- Whether a file lies at a path. -/
def isFile (w : Workspace) (p : Path) : Bool := w.contains p && !w.isDirectory p

/-- The text of the file at a path. -/
def read? (w : Workspace) (p : Path) : Option Text :=
  match w.at? p with
  | some (.text t) => some t
  | _ => none

/-! ### Listing -/

/-- The order of locations, name by name: a directory comes before what it holds. -/
def compareLocations (k l : Location) : Ordering := List.compareLex (List.compareLex compare) k l

/-- The names that lead from a location to one below it. -/
def below? (l k : Location) : Option Location :=
  if l.isPrefixOf k && l.length < k.length then some (k.drop l.length) else none

/-- All that lies below a location, by the names that lead there, in order. -/
def below (w : Workspace) (l : Location) : List Location :=
  Sorted.ofList compareLocations (w.nodes.keys.filterMap (below? l))

/-- Whether listing directories from a location on leads along some names: all of them but the
last one can be listed. -/
def isOpen (w : Workspace) (l : Location) (names : List Text) : Bool :=
  (List.range names.length).all fun n => w.node? (l ++ names.take n) ≠ some .closed

/-! ### Writing -/

/-- Where the last piece of a path lies or would lie, the rest of the path being there. -/
def target? (w : Workspace) (p : Path) : Option Location := do
  let ts := Path.pieces p
  let l ← w.walk? (w.start p) ts.dropLast
  match ts.getLast?.bind Path.part? with
  | some (.name t) => if w.hasDirectory l then some (l ++ [t]) else none
  | _ => none

/-- The workspace after a text was written to a path. -/
def write? (w : Workspace) (p : Path) (t : Text) : Option Workspace := do
  let l ← w.target? p
  if w.hasDirectory l then none else some (w.put l (.text t))

/-- The directories that pieces of a path lead through, made where nothing lies, and whether
each one could be. -/
def makeAlong (w : Workspace) (l : Location) : List Text → Workspace × Bool
  | [] => (w, true)
  | t :: ts =>
    match Path.part? t with
    | some (.name t) =>
      match w.node? (l ++ [t]) with
      | some n => if n.isDirectory then w.makeAlong (l ++ [t]) ts else (w, false)
      | none => (w.put (l ++ [t]) .directory).makeAlong (l ++ [t]) ts
    | some .up => w.makeAlong l.dropLast ts
    | _ => w.makeAlong l ts

/-- The pieces of a path that count, without dots at the end and the piece in front of them;
none where the path does not end in a dot. -/
def beforeDot? (p : Path) : Option (List Text) :=
  let ts := Text.dropEndWhile List.isEmpty (Path.pieces p)
  if ts.getLast? = some ['.'] then
    some (Text.dropEndWhile (fun t => (Path.part? t).isNone) ts).dropLast
  else none

/-- The workspace after the directory of a path was made, with all on the way to it, and whether
it could be. A directory is not made through a dot at the end of its path. -/
def makeDirectory (w : Workspace) (p : Path) : Workspace × Bool :=
  if w.isDirectory p then (w, true)
  else
    match beforeDot? p with
    | none => w.makeAlong (w.start p) (Path.pieces p)
    | some ts =>
      let (w, made) := w.makeAlong (w.start p) ts
      (w, made && w.isDirectory p)

/-! ### Reading back -/

@[simp] theorem node?_root (w : Workspace) : w.node? [] = some .directory := rfl

@[simp] theorem hasDirectory_root (w : Workspace) : w.hasDirectory [] = true := rfl

/-- A location reads as last written, and putting something there changes no other. -/
theorem node?_put {w : Workspace} {l : Location} {n : Node} (h : l ≠ []) (k : Location) :
    (w.put l n).node? k = if k = l then some n else w.node? k := by
  by_cases hk : k = []
  · subst hk
    simp [Ne.symm h]
  · simp [node?, put, hk]

end Workspace

end Docstring
