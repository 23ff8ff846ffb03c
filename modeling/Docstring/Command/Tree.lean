import Docstring.Command.Arguments
import Docstring.Command.Outcome
import Docstring.Files.Glob
import Docstring.Hierarchy.Descriptor
import Docstring.Log.Decisions

/-!
# Rewriting descriptor files

The run that rewrites the type descriptors in files. The files are what its arguments stand for,
in order and each one once. They are read, rewritten and given out one after the other, so what
was given out before a file fails stays.
-/

namespace Docstring

namespace TreeRequest

/-- How descriptors are rewritten. -/
def inheritance (q : TreeRequest) : InheritRequest where
  style := .named q.style
  includeSpecial := q.includeSpecial
  lookup := if q.chain then .chain else .nearest

/-- The pattern of an argument that names no file: a directory stands for the descriptors in
it. -/
def patternOf (w : Workspace) (argument : Text) : Text :=
  if w.isDirectory argument then Glob.escape (Path.dropSlashes argument) ++ "/*.json".toList
  else argument

/-- The files that an argument stands for. What is no file has to be a pattern, and every directory
that the pattern needs listed has to be one that can be. -/
def denoted (w : Workspace) (argument : Text) : Except Failure (List Path) :=
  if w.isFile argument then .ok [argument]
  else
    match Glob.parse? (patternOf w argument) with
    | none => .error (.badPattern argument)
    | some pattern =>
      (((pattern.paths w).mapM id).mapError fun _ => .unreadableMatch argument).map
        fun ps => ps.filter w.isFile

/-- The files that arguments stand for, in order and each one once. -/
def descriptorFiles (w : Workspace) (arguments : List Text) : Except Failure (List Path) :=
  (arguments.mapM (denoted w)).map fun pss => Path.sorted pss.flatten

/-- The arguments that stand for no file, as far as they are looked at. -/
def unmatched (w : Workspace) (arguments : List Text) : List Text :=
  (arguments.takeWhile fun a => (denoted w a).isOk).filter fun a =>
    (denoted w a).toOption = some []

/-- The type that the file at a path describes. -/
def readType (w : Workspace) (p : Path) : Except Failure TypeDescriptor :=
  match w.read? p with
  | none => .error (.unreadable p)
  | some t =>
    match Descriptor.read? t with
    | none => .error (.badDescriptor p)
    | some ty => .ok ty

/-- The descriptor of a file, rewritten. -/
def rewritten (q : TreeRequest) (w : Workspace) (p : Path) : Except Failure Text := do
  let ty ← readType w p
  let ty ← (ty.inherit q.inheritance Registry.withBuiltins).mapError (.badRewriting p)
  return Descriptor.write ty

/-- The events of rewriting the descriptor of a file. -/
def rewritingEvents (q : TreeRequest) (w : Workspace) (p : Path) : List Event :=
  match readType w p, Registry.withBuiltins.resolve q.inheritance.style with
  | .ok ty, .ok s =>
    Inheritance.events ⟨s, q.inheritance.includeSpecial, q.inheritance.lookup⟩ ty
  | _, _ => []

/-- The path that the descriptor of a file is written to in a directory. -/
def outputPath (dir : Path) (p : Path) : Path := Path.join dir (Path.stem p ++ ".json".toList)

/-- A run in which a rewritten descriptor was given out as well. -/
def deliver (q : TreeRequest) (o : Outcome) (p : Path) (t : Text) : Outcome :=
  match q.output with
  | none => { o with stdout := o.stdout ++ t }
  | some dir =>
    let target := outputPath dir p
    match o.files.write? target t with
    | some w => { o with files := w, events := o.events ++ [.written target] }
    | none => { o with failure := some (.unwritable target) }

/-- A run in which the file at a path was dealt with as well. -/
def step (q : TreeRequest) (o : Outcome) (p : Path) : Outcome :=
  let o := { o with events := o.events ++ q.rewritingEvents o.files p }
  match q.rewritten o.files p with
  | .error e => { o with failure := some e }
  | .ok t => q.deliver o p t

/-- A run in which the files at some paths were dealt with, up to the first that fails. -/
def steps (q : TreeRequest) (o : Outcome) : List Path → Outcome
  | [] => o
  | p :: ps =>
    let o := q.step o p
    if o.failure.isSome then o else q.steps o ps

/-- The run in a workspace that has the output directory. -/
def runIn (q : TreeRequest) (w : Workspace) : Outcome :=
  let warnings := (unmatched w q.files).map .noMatch
  match descriptorFiles w q.files with
  | .error e => ⟨w, [], warnings, some e⟩
  | .ok [] => ⟨w, [], warnings, some .nothingToDo⟩
  | .ok ps => q.steps ⟨w, [], warnings, none⟩ ps

/-- The run of a rewriting. -/
def run (q : TreeRequest) (s : Surroundings) : Outcome :=
  match q.output with
  | none => q.runIn s.files
  | some dir =>
    let (w, made) := s.files.makeDirectory dir
    if made then q.runIn w else ⟨w, [], [], some (.noDirectory dir)⟩

end TreeRequest

end Docstring
