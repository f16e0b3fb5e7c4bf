import PeerRelay.Text.Blank

/-!
# Logging

The form of the log, and which notes a filter lets through.

A filter is a list of directives between commas: a level for every note, the origin of notes to
let through in full, or an origin with its level. Of the directives that concern a note the one
with the longest origin decides; without directives only errors pass. A directive that cannot be
read is left out, and this is said in plain words before anything else.
-/

namespace PeerRelay.Settings

/-- The form of a log. -/
inductive LogForm where
  | compact
  | json
deriving DecidableEq, Repr

/-- The form that a text names, in letters of any case; compact if it names none. -/
def LogForm.parse (name : Option String) : LogForm :=
  match name.map fun s => Text.lowerAscii (Text.trimBlank s) with
  | some "json" | some "jsonl" => .json
  | _ => .compact

/-- How much a note matters, from the least on. -/
inductive LogLevel where
  | trace
  | debug
  | info
  | warn
  | error
deriving DecidableEq, Repr

/-- The place of a level among the levels, the most urgent first. -/
def LogLevel.rank : LogLevel → Nat
  | .error => 1
  | .warn => 2
  | .info => 3
  | .debug => 4
  | .trace => 5

/-- What is said on the way, and by which part of the program. -/
structure Note where
  level : LogLevel
  origin : String
deriving DecidableEq, Repr

/-- A directive lets through the notes of an origin, or of all, up to a rank. -/
structure Directive where
  origin : Option String
  rank : Nat
deriving DecidableEq, Repr

/-- The names of the ranks. -/
def rankNames : List (String × Nat) := [
  ("off", 0), ("error", 1), ("warn", 2), ("info", 3), ("debug", 4), ("trace", 5),
  ("0", 0), ("1", 1), ("2", 2), ("3", 3), ("4", 4), ("5", 5)]

/-- The rank that a text names. -/
def rank? (name : String) : Option Nat :=
  rankNames.lookup (Text.lowerAscii name)

namespace Directive

/-- Reads a directive. -/
def parse? (s : String) : Option Directive := do
  let cs := (Text.trimBlank s).toList
  let first ← cs.head?
  if !first.isAlphanum ∧ first.toNat < 0x80 ∧ !"[-:_".toList.contains first then none
  match cs.span (· != '=') with
  | (name, '=' :: level) =>
    let origin := String.ofList name
    return ⟨some origin, ← if level.isEmpty then some 5 else rank? (String.ofList level)⟩
  | (name, _) =>
    let name := String.ofList name
    match rank? name with
    | some rank => return ⟨none, rank⟩
    | none => return ⟨some name, 5⟩

/-- Whether a directive concerns a note. -/
def concerns (d : Directive) (n : Note) : Bool :=
  d.origin.all fun origin => n.origin.startsWith origin

/-- How exactly a directive says whom it concerns. -/
def precision (d : Directive) : Nat :=
  match d.origin with
  | some origin => origin.length + 1
  | none => 0

end Directive

/-- A filter, with the number of directives that could not be read. -/
structure LogFilter where
  directives : List Directive
  unread : Nat
deriving DecidableEq, Repr

namespace LogFilter

/-- The directives in a text. -/
def texts (s : String) : List String :=
  (s.splitOn ",").filter (!·.isEmpty)

/-- The filter that a text describes. -/
def parse (s : String) : LogFilter :=
  let read := (texts s).map Directive.parse?
  ⟨read.filterMap id, read.countP (·.isNone)⟩

/-- The filter of the environment, if there is one and all of it can be read, else the one of a
level. -/
def choose (environment : Option String) (level : String) : LogFilter :=
  match environment.map parse with
  | some filter => if filter.unread = 0 then filter else parse level
  | none => parse level

/-- Whether a filter lets a note through. -/
def passes (f : LogFilter) (n : Note) : Bool :=
  let more (best : Option Directive) (d : Directive) : Option Directive :=
    if d.concerns n ∧ best.all (·.precision ≤ d.precision) then some d else best
  match f.directives with
  | [] => n.level.rank ≤ 1
  | directives =>
    match directives.foldl more none with
    | some d => n.level.rank ≤ d.rank
    | none => false

end LogFilter

/-- How the first line of a log begins. -/
inductive LogLine where
  | json
  | text
  | nothing
deriving DecidableEq, Repr

/-- The first line of the log of the notes. -/
def firstLine (form : LogForm) (f : LogFilter) (notes : List Note) : LogLine :=
  if 0 < f.unread then .text
  else if notes.any f.passes then match form with
    | .json => .json
    | .compact => .text
  else .nothing

end PeerRelay.Settings
