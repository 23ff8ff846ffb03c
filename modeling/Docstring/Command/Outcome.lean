import Docstring.Files.Workspace
import Docstring.Log.Event
import Docstring.Style

/-!
# Outcomes

What a run finds and what it leaves: files, printed text, events, and the failure that ended it,
if one did. What was done before a failure stays done.
-/

namespace Docstring

/-- Why a run fails. -/
inductive Failure where
  /-- Both docstrings were to come from the standard input. -/
  | bothFromInput
  /-- The style of a merge cannot be used. -/
  | badStyle (name : Text) (e : StyleError)
  /-- A file holds no text that can be read. -/
  | unreadable (path : Path)
  /-- The standard input holds no text. -/
  | unreadableInput
  /-- A directory cannot be made. -/
  | noDirectory (path : Path)
  /-- An argument is no pattern. -/
  | badPattern (argument : Text)
  /-- An argument leads through a directory that cannot be listed. -/
  | unreadableMatch (argument : Text)
  /-- No argument stands for a file. -/
  | nothingToDo
  /-- A file holds no descriptor. -/
  | badDescriptor (path : Path)
  /-- The style of a rewriting cannot be used. -/
  | badRewriting (path : Path) (e : StyleError)
  /-- A file cannot be written. -/
  | unwritable (path : Path)
  deriving DecidableEq

namespace Failure

/-- What failed, in one line. -/
def message : Failure → Text
  | bothFromInput => "only one of ANCESTOR and DESCENDANT can be read from stdin".toList
  | badStyle name _ => "failed to resolve style '".toList ++ name ++ ['\'']
  | unreadable path => "failed to read ".toList ++ path
  | unreadableInput => "failed to read stdin".toList
  | noDirectory path => "failed to create output directory: ".toList ++ path
  | badPattern argument => "invalid glob pattern: ".toList ++ argument
  | unreadableMatch argument => "failed to read a match of ".toList ++ argument
  | nothingToDo => "no input files matched".toList
  | badDescriptor path => "failed to parse type descriptor in ".toList ++ path
  | badRewriting path _ => "failed to rewrite ".toList ++ path
  | unwritable path => "failed to write ".toList ++ path

/-- Why it failed, where the program knows. -/
def cause? : Failure → Option Text
  | badStyle _ e | badRewriting _ e => some e.message
  | _ => none

end Failure

/-- What a run finds: files, and the text on its standard input if there is one. -/
structure Surroundings where
  /-- The files. -/
  files : Workspace
  /-- The standard input. -/
  input : Option Text

/-- What a run leaves. -/
structure Outcome where
  /-- The files. -/
  files : Workspace
  /-- What was printed. -/
  stdout : Text
  /-- What happened, in order. -/
  events : List Event
  /-- Why the run failed, if it did. -/
  failure : Option Failure
  deriving DecidableEq

/-- The exit code of a run. -/
def Outcome.code (o : Outcome) : Nat := if o.failure.isSome then 1 else 0

end Docstring
