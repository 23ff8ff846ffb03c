import Docstring.Command.Run

/-!
# The program

Looks at the files that the arguments may stand for, runs the command line on them, and then
writes what changed, prints the output, logs to the standard error and sets the exit code. All
decisions are those of the run; nothing but input and output is done here.
-/

namespace Docstring

/-! ### Looking at files -/

/-- The absolute path of a location. -/
def Location.toPath (l : Location) : String :=
  String.ofList ('/' :: ['/'].intercalate l)

/-- The location of an absolute path. -/
def Location.ofPath (p : Path) : Location := (Path.pieces p).filter fun t => !t.isEmpty

/-- The names in the directory at a location, unless they cannot be listed. -/
def namesIn? (l : Location) : IO (Option (List Text)) := do
  match ← ((← IO.currentDir) / l.toPath).readDir.toBaseIO with
  | .ok entries => return some (entries.toList.map fun e => e.fileName.toList)
  | .error _ => return none

/-- What lies at a location. A file that cannot be read counts as one without text. -/
def lookAt (l : Location) : IO (Option Node) := do
  let path := (← IO.currentDir) / l.toPath
  if !(← path.pathExists) then return none
  if ← path.isDir then
    return some (if (← namesIn? l).isSome then .directory else .closed)
  match ← (IO.FS.readBinFile path).toBaseIO with
  | .ok bytes => return some (((String.fromUTF8? bytes).map String.toList).elim .binary .text)
  | .error _ => return some .binary

/-- What an argument may stand for: what lies some levels below a place. -/
structure Reach where
  /-- The pieces that lead to the place. -/
  along : List Text
  /-- How many levels it may go down from there. -/
  depth : Nat
  /-- The names that it spells out on the way down. -/
  names : List Text

/-- A workspace with what lies at a location and so many levels below it. In a directory that cannot
be listed, the given names are tried. -/
def load (w : Workspace) (names : List Text) (l : Location) : Nat → IO Workspace
  | 0 => return (← lookAt l).elim w (w.put l)
  | depth + 1 => do
    let some n ← lookAt l | return w
    let w := w.put l n
    if !n.isDirectory then return w
    ((← namesIn? l).getD names).foldlM (fun w name => load w names (l ++ [name]) depth) w

/-- A workspace with every place that pieces lead through, and with what may be reached from the
last. -/
def loadAlong (w : Workspace) (r : Reach) (l : Location) : List Text → IO Workspace
  | [] => load w r.names l r.depth
  | t :: ts => do
    match Path.part? t with
    | some (.name t) => loadAlong (← load w [] (l ++ [t]) 0) r (l ++ [t]) ts
    | some .up => loadAlong w r l.dropLast ts
    | _ => loadAlong w r l ts

/-- How far down a pattern looks that has a part of two stars. -/
def deepest : Nat := 64

/-- Whether a piece of a pattern stands for itself. -/
def isLiteral (t : Text) : Bool := !t.any fun c => ['?', '*', '['].contains c

/-- What an argument may stand for. -/
def reach (argument : Text) : Reach :=
  let ts := Path.pieces argument
  let rest := ts.dropWhile isLiteral
  { along := ts.takeWhile isLiteral
    depth := if rest.contains ['*', '*'] then deepest else rest.length + 1
    names := rest.filter fun t => isLiteral t && Path.part? t = some (.name t) }

/-- The paths that a request looks at, and what it may reach there. -/
def Request.places : Request → List (Path × Reach)
  | .merge q => [q.ancestor, q.descendant].map fun p => (p, ⟨Path.pieces p, 0, []⟩)
  | .tree q =>
    (q.files.map fun a => (a, reach a)) ++ q.output.toList.map fun p => (p, ⟨Path.pieces p, 1, []⟩)
  | .styles => []

/-- The files that a request looks at. -/
def survey (q : Request) : IO Workspace := do
  let home := Location.ofPath (← IO.currentDir).toString.toList
  let w ← home.length.foldM (fun n _ w => load w [] (home.take (n + 1)) 0)
    (⟨OrderedMap.empty, home⟩ : Workspace)
  q.places.foldlM (fun w (p, r) => loadAlong w r (w.start p) r.along) w

/-! ### Standard input -/

/-- The bytes of a stream up to its end. -/
partial def readAll (s : IO.FS.Stream) (found : ByteArray) : IO ByteArray := do
  let bytes ← s.read 65536
  if bytes.isEmpty then return found else readAll s (found ++ bytes)

/-- The text on the standard input, as far as a request reads it. -/
def readInput : Request → IO (Option Text)
  | .merge q => do
    if q.ancestor ≠ MergeRequest.standardInput && q.descendant ≠ MergeRequest.standardInput then
      return some []
    let bytes ← readAll (← IO.getStdin) ByteArray.empty
    return (String.fromUTF8? bytes).map String.toList
  | _ => return some []

/-! ### Writing -/

/-- Puts on the disk what a run changed. -/
def store (before after : Workspace) : IO Unit :=
  after.nodes.entries.forM fun (l, n) => do
    if before.node? l = some n then return
    match n with
    | .directory => IO.FS.createDirAll l.toPath
    | .text t => IO.FS.writeFile l.toPath (String.ofList t)
    | .closed | .binary => return

/-- Tells why a run failed. -/
def report (e : Failure) : IO Unit := do
  IO.eprintln ("Error: " ++ String.ofList e.message)
  match e.cause? with
  | some t => IO.eprintln ("\nCaused by:\n    " ++ String.ofList t)
  | none => return

end Docstring

open Docstring in
/-- Runs the command line. -/
def main (arguments : List String) : IO UInt32 := do
  let arguments := arguments.map String.toList
  match Invocation.parse? arguments with
  | none =>
    IO.eprintln "Usage: docmerge [--verbose] <merge|tree|styles> [OPTIONS] [ARGUMENTS]"
    return 2
  | some i =>
    let setting ← IO.getEnv "RUST_LOG"
    let before ← survey i.request
    let outcome := i.request.run ⟨before, ← readInput i.request⟩
    store before outcome.files
    (logLines arguments (setting.map String.toList) outcome).forM fun l =>
      IO.eprintln (String.ofList l)
    IO.print (String.ofList outcome.stdout)
    match outcome.failure with
    | some e => report e
    | none => pure ()
    return outcome.code.toUInt32
