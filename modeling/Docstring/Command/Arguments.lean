import Docstring.Files.Path

/-!
# Arguments

What the command line asks for. A subcommand comes first, with at most one switch for verbose
logs before it; options and other arguments may then come in any order. An option is spelled out
after two hyphens or abbreviated to a letter after one, and letters may share a hyphen. The value
of an option stands behind an equals sign, or right behind its letter, or is the next argument.
Two hyphens alone end the options, and a hyphen alone is no option.

Anything else is refused as a whole: an option that the subcommand does not have, one without its
value, or one given twice.
-/

namespace Docstring

/-- What the program does. -/
inductive Subcommand where
  /-- Merge two docstrings. -/
  | merge
  /-- Rewrite the docstrings of type descriptors. -/
  | tree
  /-- List the styles. -/
  | styles
  deriving DecidableEq

namespace Subcommand

/-- The name of a subcommand. -/
def name : Subcommand → Text
  | merge => "merge".toList
  | tree => "tree".toList
  | styles => "styles".toList

/-- The subcommand of a name. -/
def ofName? (t : Text) : Option Subcommand := [merge, tree, styles].find? fun c => c.name = t

end Subcommand

/-- An option. -/
inductive Switch where
  /-- Log decisions. -/
  | verbose
  /-- The style of the merge. -/
  | style
  /-- The descendant's parameters. -/
  | params
  /-- Inherit from every documented ancestor. -/
  | chain
  /-- Rewrite special members as well. -/
  | includeSpecial
  /-- Write to a directory. -/
  | output
  deriving DecidableEq

namespace Switch

/-- The name of an option. -/
def name : Switch → Text
  | verbose => "verbose".toList
  | style => "style".toList
  | params => "params".toList
  | chain => "chain".toList
  | includeSpecial => "include-special".toList
  | output => "output".toList

/-- The letter of an option, where it has one. -/
def letter? : Switch → Option Char
  | verbose => some 'v'
  | style => some 's'
  | output => some 'o'
  | params | chain | includeSpecial => none

/-- Whether an option has a value. -/
def hasValue : Switch → Bool
  | style | params | output => true
  | verbose | chain | includeSpecial => false

/-- Whether an option may be given more than once. -/
def repeats (s : Switch) : Bool := s = params

/-- The options of a subcommand. -/
def allowed : Subcommand → List Switch
  | .merge => [verbose, style, params]
  | .tree => [verbose, style, chain, includeSpecial, output]
  | .styles => [verbose]

/-- The option of a name. -/
def ofName? (c : Subcommand) (t : Text) : Option Switch := (allowed c).find? fun s => s.name = t

/-- The option of a letter. -/
def ofLetter? (c : Subcommand) (l : Char) : Option Switch :=
  (allowed c).find? fun s => s.letter? = some l

end Switch

/-- An argument as it is understood. -/
inductive Argument where
  /-- An option without a value. -/
  | switch (s : Switch)
  /-- An option with its value. -/
  | setting (s : Switch) (value : Text)
  /-- Any other argument. -/
  | plain (t : Text)
  deriving DecidableEq

namespace Argument

/-- Whether an argument is an option by its look. -/
def looksLikeOption (t : Text) : Bool := t.head? = some '-' && t ≠ ['-']

/-- A spelled-out option, less its hyphens, as its name and the value behind an equals sign. -/
def splitValue (t : Text) : Text × Option Text :=
  match t.dropWhile (· ≠ '=') with
  | [] => (t, none)
  | _ :: value => (t.takeWhile (· ≠ '='), some value)

/-- The options of letters that share a hyphen, and the last one of them where its value is yet
to come. -/
def ofLetters? (c : Subcommand) : Text → Option (List Argument × Option Switch)
  | [] => some ([], none)
  | l :: t =>
    (Switch.ofLetter? c l).bind fun s =>
      if s.hasValue then
        match t with
        | [] => some ([], some s)
        | '=' :: value => some ([.setting s value], none)
        | value => some ([.setting s value], none)
      else (ofLetters? c t).map fun r => (.switch s :: r.1, r.2)

/-- A spelled-out option, less its hyphens, as far as it is complete, and the option where its
value is yet to come. -/
def ofWord? (c : Subcommand) (t : Text) : Option (List Argument × Option Switch) :=
  let (name, value) := splitValue t
  (Switch.ofName? c name).bind fun s =>
    match s.hasValue, value with
    | true, some value => some ([.setting s value], none)
    | true, none => some ([], some s)
    | false, none => some ([.switch s], none)
    | false, some _ => none

/-- The arguments of a subcommand as they are understood. -/
def ofTexts? (c : Subcommand) : List Text → Option (List Argument)
  | [] => some []
  | t :: ts =>
    if t = ['-', '-'] then some (ts.map .plain)
    else if !looksLikeOption t then (ofTexts? c ts).map (.plain t :: ·)
    else
      let read := if ['-', '-'].isPrefixOf t then ofWord? c (t.drop 2) else ofLetters? c (t.drop 1)
      match read with
      | none => none
      | some (args, none) => (ofTexts? c ts).map (args ++ ·)
      | some (args, some s) =>
        match ts with
        | [] => none
        | value :: ts =>
          if looksLikeOption value then none
          else (ofTexts? c ts).map (args ++ .setting s value :: ·)

/-- The option of an argument. -/
def option? : Argument → Option Switch
  | switch s => some s
  | setting s _ => some s
  | plain _ => none

/-- The arguments that are no options. -/
def plains (args : List Argument) : List Text :=
  args.filterMap fun
    | plain t => some t
    | _ => none

/-- The values of an option, in order. -/
def values (s : Switch) (args : List Argument) : List Text :=
  args.filterMap fun
    | setting s' value => if s' = s then some value else none
    | _ => none

/-- Whether an option is given. -/
def gives (s : Switch) (args : List Argument) : Bool := args.any fun a => a.option? = some s

/-- Whether no option is given twice that may not be. -/
def distinct (c : Subcommand) (args : List Argument) : Bool :=
  (Switch.allowed c).all fun s => s.repeats || (args.filterMap option?).count s ≤ 1

end Argument

/-! ### Requests -/

/-- Two docstrings to merge. -/
structure MergeRequest where
  /-- The name of the style. -/
  style : Text
  /-- The descendant's parameters, as they are given. -/
  params : Option (List Text)
  /-- The file of the ancestor, or a hyphen. -/
  ancestor : Path
  /-- The file of the descendant, or a hyphen. -/
  descendant : Path
  deriving DecidableEq

/-- Type descriptors to rewrite. -/
structure TreeRequest where
  /-- Files, directories and patterns. -/
  files : List Text
  /-- The name of the style. -/
  style : Text
  /-- Whether members inherit from every documented ancestor. -/
  chain : Bool
  /-- Whether special members inherit. -/
  includeSpecial : Bool
  /-- The directory that is written to. -/
  output : Option Path
  deriving DecidableEq

/-- What the program is asked to do. -/
inductive Request where
  /-- Merge two docstrings. -/
  | merge (q : MergeRequest)
  /-- Rewrite type descriptors. -/
  | tree (q : TreeRequest)
  /-- List the styles. -/
  | styles
  deriving DecidableEq

/-- A command line. -/
structure Invocation where
  /-- Whether decisions are logged. -/
  verbose : Bool
  /-- What is to be done. -/
  request : Request
  deriving DecidableEq

namespace Invocation

open Argument

/-- The name of the style that is used where none is given. -/
def defaultStyle : Text := "parent".toList

/-- The style that some arguments give. -/
def styleOf (args : List Argument) : Text := ((values .style args).head?).getD defaultStyle

/-- The parameters that some arguments give. Each value is divided at its commas. -/
def paramsOf (args : List Argument) : Option (List Text) :=
  if gives .params args then some ((values .params args).flatMap fun v => v.splitOn ',') else none

/-- The request that some arguments make of a subcommand. -/
def request? (c : Subcommand) (args : List Argument) : Option Request :=
  match c, plains args with
  | .merge, [ancestor, descendant] =>
    some (.merge ⟨styleOf args, paramsOf args, ancestor, descendant⟩)
  | .tree, file :: files =>
    let output := (values .output args).head?
    if output = some [] then none
    else some (.tree ⟨file :: files, styleOf args, gives .chain args, gives .includeSpecial args,
      output⟩)
  | .styles, [] => some .styles
  | _, _ => none

/-- The command line that a subcommand and its arguments make. -/
def ofSubcommand? (verbose : Bool) : List Text → Option Invocation
  | [] => none
  | name :: ts => do
    let c ← Subcommand.ofName? name
    let args ← ofTexts? c ts
    if !distinct c args then none
    let request ← request? c args
    return ⟨verbose || gives .verbose args, request⟩

/-- The command line of some arguments, if it can be understood. -/
def parse? : List Text → Option Invocation
  | [] => none
  | t :: ts =>
    if t = "-v".toList || t = "--verbose".toList then ofSubcommand? true ts
    else ofSubcommand? false (t :: ts)

end Invocation

end Docstring
