import Docstring.Command.Merge
import Docstring.Command.Tree
import Docstring.Log.Filter

/-!
# Runs

What the program does with a command line, and which of the events of a run it logs.
-/

namespace Docstring

/-- The run of a request. -/
def Request.run (q : Request) (s : Surroundings) : Outcome :=
  match q with
  | .merge q => q.run s
  | .tree q => q.run s
  | .styles =>
    ⟨s.files, Registry.withBuiltins.names.flatMap (· ++ ['\n']), [], none⟩

/-- The run of a command line, unless it cannot be understood. -/
def run? (arguments : List Text) (s : Surroundings) : Option Outcome :=
  (Invocation.parse? arguments).map fun i => i.request.run s

/-- The lines that a command line logs, by what the environment sets. -/
def logLines (arguments : List Text) (setting : Option Text) (o : Outcome) : List Line :=
  (LogFilter.choose ((Invocation.parse? arguments).any Invocation.verbose) setting).lines o.events

end Docstring
