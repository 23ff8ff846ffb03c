import Docstring.Log.Event
import Docstring.Text.Word

/-!
# Filters

Which events are shown. A filter lists the least urgent level that is shown, for all targets or
for those that start with a given text. The longest text that an event's target starts with
decides, and an event that nothing in the filter speaks of is not shown.
-/

namespace Docstring

/-- A rule of a filter. -/
structure LogRule where
  /-- What a target has to start with, if the rule is not for all. -/
  target : Option Text
  /-- The rank of the least urgent level that is shown, zero for none. -/
  rank : Nat
  deriving DecidableEq

/-- Whether a rule speaks of a target. -/
def LogRule.covers (r : LogRule) (target : Text) : Bool :=
  r.target.all fun p => p.isPrefixOf target

/-- The rules of a filter, of which a later one replaces an earlier one for the same target. -/
abbrev LogFilter := List LogRule

namespace LogFilter

/-- The filter that is used where the environment sets none. -/
def standard (verbose : Bool) : LogFilter :=
  let rank := if verbose then Level.debug.rank else Level.warn.rank
  [⟨some "docmerge".toList, rank⟩, ⟨some "docinherit".toList, rank⟩]

/-! ### Reading -/

/-- The rank that a name of a level, or its number, stands for. -/
def rank? (t : Text) : Option Nat :=
  let t := t.map Char.toLower
  if t = "off".toList || t = "0".toList then some 0
  else if t = "error".toList || t = "1".toList then some 1
  else if t = "warn".toList || t = "2".toList then some 2
  else if t = "info".toList || t = "3".toList then some 3
  else if t = "debug".toList || t = "4".toList then some 4
  else if t = "trace".toList || t = "5".toList then some 5
  else none

/-- A character of a target. -/
def isTargetChar (c : Char) : Bool := Text.isWord c || c = ':' || c = '-'

/-- A rule: a level, a target, or a target with its level. A target alone shows every level. -/
def rule? (t : Text) : Option LogRule :=
  match rank? t with
  | some rank => some ⟨none, rank⟩
  | none =>
    let target := t.takeWhile isTargetChar
    if target.isEmpty then none
    else match t.dropWhile isTargetChar with
      | [] => some ⟨some target, Level.trace.rank⟩
      | '=' :: [] => some ⟨some target, Level.trace.rank⟩
      | '=' :: level => (rank? level).map fun rank => ⟨some target, rank⟩
      | _ => none

/-- A filter: rules with commas between them. A filter without rules shows errors only. -/
def parse? (t : Text) : Option LogFilter :=
  match ((t.splitOn ',').filter fun r => !r.isEmpty).mapM rule? with
  | some [] => some [⟨none, Level.error.rank⟩]
  | rules => rules

/-- The filter of a run: what the environment sets, as far as it can be read. -/
def choose (verbose : Bool) (setting : Option Text) : LogFilter :=
  ((setting.bind parse?).getD (standard verbose))

/-! ### Choosing -/

/-- Which of two rules on a target counts: the one with the longer text, or else the later. -/
def prefer (r s : LogRule) : LogRule :=
  if (s.target.map List.length).getD 0 < (r.target.map List.length).getD 0 then r else s

/-- The rule that decides on a target. -/
def ruleFor? (f : LogFilter) (target : Text) : Option LogRule :=
  (f.filter fun r => r.covers target).foldl
    (fun best r => some (best.elim r fun b => prefer b r)) none

/-- Whether an event is shown. -/
def shows (f : LogFilter) (e : Event) : Bool :=
  (f.ruleFor? e.target).any fun r => e.level.rank ≤ r.rank

/-- The lines of the events that are shown. -/
def lines (f : LogFilter) (es : List Event) : List Line := (es.filter f.shows).map Event.line

end LogFilter

end Docstring
