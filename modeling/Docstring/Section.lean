import Docstring.Text.Basic

/-!
# Sections

The sections that a docstring may be divided into, under their canonical names. Some list named
items, such as parameters; the others hold prose.
-/

namespace Docstring

/-- A canonical section. -/
inductive Section where
  /-- What the thing is, in a line or two. -/
  | shortSummary
  /-- Since when it should no longer be used. -/
  | deprecationWarning
  /-- The attributes of a type. -/
  | attributes
  /-- The methods of a type. -/
  | methods
  /-- What the short summary leaves out. -/
  | extendedSummary
  /-- A single warning. -/
  | warning
  /-- A single note. -/
  | note
  /-- The parameters of a call. -/
  | parameters
  /-- Parameters that are seldom given. -/
  | otherParameters
  /-- Parameters that are given by name. -/
  | keywordArguments
  /-- What a call gives back. -/
  | returns
  /-- What a generator gives, one by one. -/
  | yields
  /-- The errors that a call may end with. -/
  | raises
  /-- The warnings that a call may give. -/
  | warns
  /-- Related things. -/
  | seeAlso
  /-- Remarks. -/
  | notes
  /-- What the remarks cite. -/
  | references
  /-- What is left to do. -/
  | todo
  /-- A single example. -/
  | singleExample
  /-- Examples of use. -/
  | examples
  deriving DecidableEq, Repr, Inhabited

namespace Section

/-- The canonical name of a section. -/
def name : Section → Text
  | shortSummary => "Short Summary".toList
  | deprecationWarning => "Deprecation Warning".toList
  | attributes => "Attributes".toList
  | methods => "Methods".toList
  | extendedSummary => "Extended Summary".toList
  | warning => "Warning".toList
  | note => "Note".toList
  | parameters => "Parameters".toList
  | otherParameters => "Other Parameters".toList
  | keywordArguments => "Keyword Arguments".toList
  | returns => "Returns".toList
  | yields => "Yields".toList
  | raises => "Raises".toList
  | warns => "Warns".toList
  | seeAlso => "See Also".toList
  | notes => "Notes".toList
  | references => "References".toList
  | todo => "Todo".toList
  | singleExample => "Example".toList
  | examples => "Examples".toList

/-- Every section. -/
def all : List Section :=
  [shortSummary, deprecationWarning, attributes, methods, extendedSummary, warning, note,
   parameters, otherParameters, keywordArguments, returns, yields, raises, warns, seeAlso, notes,
   references, todo, singleExample, examples]

/-- The section of a canonical name. -/
def ofName? (t : Text) : Option Section := all.find? fun k => k.name = t

/-- Sections that list named items. -/
def hasItems : Section → Bool
  | attributes | methods | parameters | otherParameters | keywordArguments => true
  | _ => false

/-- Sections whose items are held against the parameters that a call really takes. -/
def isSignatureChecked (k : Section) : Bool := k = parameters

/-- No section is missing from the list. -/
theorem mem_all (k : Section) : k ∈ all := by cases k <;> decide

/-- A canonical name is read as its own section. -/
theorem ofName?_name (k : Section) : ofName? k.name = some k := by cases k <;> decide

end Section

end Docstring
