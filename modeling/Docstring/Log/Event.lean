import Docstring.Section
import Docstring.Text.Quoted

/-!
# Events

What a run tells about its decisions, next to its result. An event has a level and a target,
by which a reader chooses what to see, and is shown as one line.
-/

namespace Docstring

/-- How urgent an event is, the most urgent first. -/
inductive Level where
  /-- Something failed. -/
  | error
  /-- Something is probably not as it was meant. -/
  | warn
  /-- News. -/
  | info
  /-- A decision. -/
  | debug
  /-- Every step. -/
  | trace
  deriving DecidableEq, Repr

namespace Level

/-- The name of a level, as a line shows it. -/
def name : Level → Text
  | error => "ERROR".toList
  | warn => "WARN".toList
  | info => "INFO".toList
  | debug => "DEBUG".toList
  | trace => "TRACE".toList

/-- How much has to be shown for a level to be. -/
def rank : Level → Nat
  | error => 1
  | warn => 2
  | info => 3
  | debug => 4
  | trace => 5

end Level

/-- Something that happened in a run. -/
inductive Event where
  /-- A line was read as the header of a section. -/
  | header (k : Section) (line : Line)
  /-- A line was read as a title. -/
  | title (line : Line)
  /-- The ancestor's errors were dropped. -/
  | raisesDropped
  /-- An item was dropped that names no parameter. -/
  | itemDropped (name : Text)
  /-- A member was merged with those of its ancestors. -/
  | memberInherited (name : Text)
  /-- A merge left no docstring. -/
  | emptyResult
  /-- A file was written. -/
  | written (path : Text)
  /-- An argument stood for no file. -/
  | noMatch (argument : Text)
  deriving DecidableEq

namespace Event

/-- How urgent an event is. -/
def level : Event → Level
  | noMatch _ => .warn
  | _ => .debug

/-- The part of the program that an event comes from. -/
def target : Event → Text
  | header _ _ => "docinherit::parser".toList
  | title _ => "docinherit::parser::rest".toList
  | raisesDropped => "docinherit::merge".toList
  | itemDropped _ => "docinherit::items".toList
  | memberInherited _ => "docinherit::hierarchy".toList
  | emptyResult | written _ | noMatch _ => "docmerge".toList

/-- What happened, in words. -/
def message : Event → Text
  | header _ _ => "section header".toList
  | title _ => "reST section title".toList
  | raisesDropped => "dropping ancestor Raises section superseded by a return value".toList
  | itemDropped _ => "dropping item with no matching parameter".toList
  | memberInherited _ => "inherited member docstring".toList
  | emptyResult => "merged docstring is empty".toList
  | written _ => "wrote rewritten tree".toList
  | noMatch _ => "no descriptor files matched".toList

/-- One named detail of an event. -/
def field (name value : Text) : Text := ' ' :: name ++ '=' :: value

/-- The details of an event. Lines of a docstring are quoted. -/
def fields : Event → Text
  | header k line => field "section".toList k.name ++ field "header".toList (Text.quoted line)
  | title line => field "title".toList (Text.quoted line)
  | itemDropped name => field "item".toList name
  | memberInherited name => field "member".toList name
  | written path => field "path".toList path
  | noMatch argument => field "input".toList argument
  | raisesDropped | emptyResult => []

/-- An event as one line. -/
def line (e : Event) : Line := e.level.name ++ ' ' :: e.message ++ e.fields

end Event

end Docstring
