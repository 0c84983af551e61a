import RegistryConsole.Log.Event
import RegistryConsole.Text.Blank

/-! # Log filters

A filter is a list of rules. A rule names a level for a part of the program or for all of it; of
the rules that fit an event, the one for the smallest part counts. -/

namespace RegistryConsole

/-- A rule: events from parts whose name starts with `target` are shown up to a rank. -/
structure LogRule where
  target : String
  rank : Nat
  /-- Whether the rule is for spans only, of which plain events are no part. -/
  spansOnly : Bool := false
  deriving DecidableEq

/-- The rules of a filter. -/
abbrev LogFilter := List LogRule

namespace LogRule

/-- The rank that a word or a digit names. -/
def rankOf? (word : String) : Option Nat :=
  let lower := String.ofList (word.toList.map Char.toLower)
  if lower = "off" ∨ lower = "0" then some 0
  else if lower = "error" ∨ lower = "1" then some 1
  else if lower = "warn" ∨ lower = "2" then some 2
  else if lower = "info" ∨ lower = "3" then some 3
  else if lower = "debug" ∨ lower = "4" then some 4
  else if lower = "trace" ∨ lower = "5" then some 5
  else none

/-- Whether a character may start a rule. -/
def mayStart (c : Char) : Bool :=
  c.isAlphanum || c == '-' || c == ':' || c == '_' || 0x80 ≤ c.toNat

/-- The rule of a text: a level, the name of a part, or a name, an equals sign and a level. -/
def parse? (text : String) : Option LogRule :=
  let cs := (trimBlank text).toList
  match cs with
  | [] => some ⟨"", 5, false⟩
  | c :: _ =>
    if c = '[' then if cs.contains ']' then some ⟨"", 5, true⟩ else none
    else if mayStart c then
      let name := cs.takeWhile fun c => c != '=' && c != '['
      match cs.drop name.length with
      | [] =>
        match rankOf? (String.ofList name) with
        | some rank => some ⟨"", rank, false⟩
        | none => some ⟨String.ofList name, 5, false⟩
      | '=' :: level =>
        if level.isEmpty then some ⟨String.ofList name, 5, false⟩
        else (rankOf? (String.ofList level)).map fun rank => ⟨String.ofList name, rank, false⟩
      | rest => if rest.contains ']' then some ⟨String.ofList name, 5, true⟩ else none
    else none

/-- Whether a rule is for the part that an event comes from. -/
def covers (rule : LogRule) (e : LogEvent) : Bool :=
  !rule.spansOnly && e.target.startsWith rule.target

end LogRule

namespace LogFilter

/-- The filter of a text of rules with commas between them. Without a rule only errors are
shown. -/
def parse? (text : String) : Option LogFilter :=
  match ((text.splitOn ",").filter (· ≠ "")).mapM LogRule.parse? with
  | none => none
  | some [] => some [⟨"", 1, false⟩]
  | some rules => some rules

/-- The filter where none is asked for: all is shown but details for debugging. -/
def default : LogFilter :=
  [⟨"", 3, false⟩]

/-- The filter that is asked for, if it can be read, or else the default. -/
def ofRequest (request : Option String) : LogFilter :=
  (request.bind parse?).getD default

/-- Of two rules the one for the smaller part; of rules for the same part the later one. -/
def narrower (best : Option LogRule) (rule : LogRule) : Option LogRule :=
  match best with
  | none => some rule
  | some b => if rule.target.length < b.target.length then some b else some rule

/-- Whether an event is shown. -/
def shows (filter : LogFilter) (e : LogEvent) : Bool :=
  match (filter.filter fun rule => rule.covers e).foldl narrower none with
  | none => false
  | some rule => e.level.rank ≤ rule.rank

end LogFilter

end RegistryConsole
