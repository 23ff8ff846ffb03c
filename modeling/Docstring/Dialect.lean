import Docstring.Section

/-!
# Dialects

A dialect fixes which sections a docstring may have, in which order they are written, under
which other names they are read, and how a header looks. Two dialects have no sections of this
kind: `parent` takes a docstring as one piece, and `rest` is divided by titles of any wording.

A line is a header only if its name is in the catalog and, in the underlined form, the line
after it is a run of hyphens of just the same length. Anything else is text.
-/

namespace Docstring

/-- How a header is written. -/
inductive HeaderForm where
  /-- A name over a run of hyphens of its own length. -/
  | underlined
  /-- A name with a colon, which may be left off. -/
  | colon
  deriving DecidableEq, Repr

/-- How many lines a header takes. -/
def HeaderForm.height : HeaderForm → Nat
  | underlined => 2
  | colon => 1

/-- A docstring convention. -/
inductive Dialect where
  /-- One piece of text. -/
  | parent
  /-- Titles of any wording, with adornment lines. -/
  | rest
  /-- Underlined headers, with a catalog of its own. -/
  | numpy
  /-- Underlined headers over the shared catalog. -/
  | numpyNapoleon
  /-- Colon headers over the shared catalog. -/
  | google
  /-- The same as `google`. -/
  | googleNapoleon
  deriving DecidableEq, Repr

namespace Dialect

open Section

/-- The sections of a dialect, in the order of output. -/
def sections : Dialect → List Section
  | parent | rest => []
  | numpy =>
    [shortSummary, deprecationWarning, attributes, methods, extendedSummary, parameters, returns,
     yields, otherParameters, raises, seeAlso, notes, references, examples]
  | numpyNapoleon | google | googleNapoleon =>
    [shortSummary, attributes, methods, warning, note, parameters, otherParameters,
     keywordArguments, returns, yields, raises, warns, seeAlso, references, todo, singleExample,
     examples]

/-- The sections that a document of a dialect holds: the catalog, or the summary alone where
there is none. -/
def slots (d : Dialect) : List Section :=
  match d.sections with
  | [] => [shortSummary]
  | ks => ks

/-- Other names under which sections are read. -/
def aliases : Dialect → List (Text × Section)
  | parent | rest | numpy => []
  | numpyNapoleon | google | googleNapoleon =>
    [("Args".toList, parameters), ("Arguments".toList, parameters),
     ("Keyword Args".toList, keywordArguments), ("Return".toList, returns),
     ("Warnings".toList, warning), ("Yield".toList, yields)]

/-- The sections that are replaced whole, whatever the policy of a merge. -/
def unmergeable : Dialect → List Section
  | parent | rest => []
  | numpy => [shortSummary, deprecationWarning, extendedSummary, examples]
  | numpyNapoleon | google | googleNapoleon => [shortSummary, singleExample, examples]

/-- The form of headers, where there are any. -/
def headerForm : Dialect → Option HeaderForm
  | parent | rest => none
  | numpy | numpyNapoleon => some .underlined
  | google | googleNapoleon => some .colon

/-- What stands in front of each line of a written item. -/
def itemPadding (d : Dialect) : Text :=
  if d.headerForm = some .colon then List.replicate 4 ' ' else []

/-- The section that a name stands for, canonical names first. -/
def resolve? (d : Dialect) (name : Text) : Option Section :=
  (d.sections.find? fun k => k.name = name).or
    ((d.aliases.find? fun a => a.1 = name).map Prod.snd)

/-! ### Headers -/

/-- A run of hyphens as long as the header above it. -/
def isUnderline (header underline : Line) : Bool :=
  underline.length = header.length && underline.all (· = '-')

/-- A line without one colon at its end. -/
def dropColon (l : Line) : Line := if l.getLast? = some ':' then l.dropLast else l

/-- The section that a header of the given form names, on a line with the given next line. -/
def headerSection? (d : Dialect) (form : HeaderForm) (line : Line) (next : Option Line) :
    Option Section :=
  let line := Text.trimEnd line
  match form with
  | .underlined =>
    match d.resolve? line, next with
    | some k, some u => if isUnderline line (Text.trimEnd u) then some k else none
    | _, _ => none
  | .colon => d.resolve? (dropColon line)

/-- The header at a line, given the line after it: its section and how many lines it takes. -/
def matchHeader (d : Dialect) (line : Line) (next : Option Line) : Option (Section × Nat) :=
  d.headerForm.bind fun form => (d.headerSection? form line next).map fun k => (k, form.height)

/-- The header of a section as written, with its line breaks. The summary has none. -/
def renderHeader (d : Dialect) (k : Section) : Text :=
  if k = .shortSummary then []
  else match d.headerForm with
    | some .underlined => k.name ++ '\n' :: List.replicate k.name.length '-' ++ ['\n']
    | some .colon => k.name ++ [':', '\n']
    | none => []

/-! ### The catalogs -/

theorem sections_nodup (d : Dialect) : d.sections.Nodup := by cases d <;> decide

theorem slots_nodup (d : Dialect) : d.slots.Nodup := by cases d <;> decide

/-- A name only ever stands for a section of the catalog. -/
theorem mem_sections_of_resolve? {d : Dialect} {name : Text} {k : Section}
    (h : d.resolve? name = some k) : k ∈ d.sections := by
  rw [resolve?, Option.or_eq_some_iff] at h
  rcases h with h | ⟨-, h⟩
  · exact List.mem_of_find?_eq_some h
  · obtain ⟨a, ha, rfl⟩ := Option.map_eq_some_iff.1 h
    have hm := List.mem_of_find?_eq_some ha
    clear h ha
    revert a
    cases d <;> decide

end Dialect

end Docstring
