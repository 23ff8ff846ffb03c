import Docstring.Command.Arguments
import Docstring.Command.Outcome
import Docstring.Log.Decisions

/-!
# Merging two files

The run that merges the docstring of one file into that of another and prints the result. One of
the two may come from the standard input. The style is looked up before anything is read.
-/

namespace Docstring

open Text

namespace MergeRequest

/-- The path that stands for the standard input. -/
def standardInput : Path := ['-']

/-- The docstring at a path. -/
def readDoc (s : Surroundings) (p : Path) : Except Failure Text :=
  if p = standardInput then
    match s.input with
    | some t => .ok t
    | none => .error .unreadableInput
  else
    match s.files.read? p with
    | some t => .ok t
    | none => .error (.unreadable p)

/-- The parameters, without white space around them and without empty ones. -/
def liveParams (q : MergeRequest) : Option (List Text) :=
  q.params.map fun ps => (ps.map trim).filter fun p => !p.isEmpty

/-- The style of the merge and the two docstrings. -/
def inputs (q : MergeRequest) (s : Surroundings) : Except Failure (Style × Text × Text) := do
  if q.ancestor = standardInput ∧ q.descendant = standardInput then
    throw .bothFromInput
  let style ← (Registry.withBuiltins.resolve (.named q.style)).mapError (.badStyle q.style)
  let ancestor ← readDoc s q.ancestor
  let descendant ← readDoc s q.descendant
  return (style, ancestor, descendant)

/-- The run of a merge. -/
def run (q : MergeRequest) (s : Surroundings) : Outcome :=
  match q.inputs s with
  | .error e => ⟨s.files, [], [], some e⟩
  | .ok (style, a, d) =>
    let events := style.events q.liveParams (some a) (some d)
    match style.merge q.liveParams (some a) (some d) with
    | some doc => ⟨s.files, doc ++ ['\n'], events, none⟩
    | none => ⟨s.files, [], events ++ [.emptyResult], none⟩

end MergeRequest

end Docstring
