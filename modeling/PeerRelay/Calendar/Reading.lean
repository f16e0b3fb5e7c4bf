import PeerRelay.Calendar.Instant

/-!
# Reading instants: common ground

The faults of a text that should hold a date and a time, and the steps that the strict and the
lenient reader share. A reader consumes a list of characters and returns what is left of it.
-/

namespace PeerRelay.Calendar

/-- Why a text does not denote an instant. -/
inductive ReadingFault where
  /-- The text ends before the instant is complete. -/
  | tooShort
  /-- A character stands where none of its kind may. -/
  | invalid
  /-- A field, or the date that the fields form, does not exist. -/
  | outOfRange
  /-- Text follows the instant. -/
  | tooLong
  /-- The local time exists, but its instant is outside the range of instants. -/
  | impossible
deriving DecidableEq, Repr

/-- The wording of a fault. -/
def ReadingFault.message : ReadingFault → String
  | .tooShort => "premature end of input"
  | .invalid => "input contains invalid characters"
  | .outOfRange => "input is out of range"
  | .tooLong => "trailing input"
  | .impossible => "no possible date and time matching input"

/-- The fields of a date and time before they are checked against the calendar. -/
structure LocalTime where
  date : Civil
  hour : Nat
  minute : Nat
  /-- 60 stands for a leap second. -/
  second : Nat
  /-- Nanoseconds after the last full second. -/
  nanos : Nat
  /-- Seconds by which the local clock is ahead of UTC. -/
  offset : Int

namespace Reading

/-- Reads the given character. -/
def mark (c : Char) : List Char → Except ReadingFault (List Char)
  | [] => .error .tooShort
  | d :: rest => if d = c then .ok rest else .error .invalid

/-- Reads the letter between date and time, or the space that may stand for it. -/
def dateTimeMark : List Char → Except ReadingFault (List Char)
  | [] => .error .tooShort
  | c :: rest => if c = 'T' ∨ c = 't' ∨ c = ' ' then .ok rest else .error .invalid

/-- Reads a fraction after its point: at least one digit, of which nine count. -/
def fraction (cs : List Char) : Except ReadingFault (Nat × List Char) :=
  let digits := cs.takeWhile Text.isDigit
  match cs, digits with
  | [], _ => .error .tooShort
  | _, [] => .error .invalid
  | _, _ =>
    let counted := digits.take 9
    .ok (Text.ofDigits counted * Nat.pow 10 (9 - counted.length), cs.dropWhile Text.isDigit)

/-- Reads a fraction with its point, if the text goes on with one. -/
def optionalFraction : List Char → Except ReadingFault (Nat × List Char)
  | '.' :: rest => fraction rest
  | cs => .ok (0, cs)

/-- The next two characters, both of one byte if they are the last of the text. -/
def nextTwo : List Char → Except ReadingFault (Char × Char × List Char)
  | [] => .error .tooShort
  | [c] => if c.toNat < 0x80 then .error .tooShort else .error .invalid
  | c :: d :: rest => .ok (c, d, rest)

/-- Reads the hours and minutes of an offset after its sign. `separator` reads what stands
between them. -/
def offsetSize (separator : List Char → Except ReadingFault (List Char)) (cs : List Char) :
    Except ReadingFault (Nat × List Char) := do
  let (h₁, h₂, rest) ← nextTwo cs
  unless Text.isDigit h₁ && Text.isDigit h₂ do throw .invalid
  let rest ← separator rest
  let (m₁, m₂, rest) ← nextTwo rest
  unless Text.isDigit m₁ && Text.isDigit m₂ do throw .invalid
  if '6' ≤ m₁ then throw .outOfRange
  return (Text.ofDigits [h₁, h₂] * 3600 + Text.ofDigits [m₁, m₂] * 60, rest)

/-- Reads an offset from UTC: the letter `Z`, or a sign (the minus sign may be the
typographic one), hours and minutes. -/
def offset (separator : List Char → Except ReadingFault (List Char)) :
    List Char → Except ReadingFault (Int × List Char)
  | [] => .error .tooShort
  | 'Z' :: rest | 'z' :: rest => .ok (0, rest)
  | '+' :: rest => do
    let (size, rest) ← offsetSize separator rest
    return (size, rest)
  | '-' :: rest | '\u2212' :: rest => do
    let (size, rest) ← offsetSize separator rest
    return (-size, rest)
  | _ => .error .invalid

end Reading

namespace LocalTime

/-- The time of day exists; a minute may have a sixtieth second. -/
def ClockExists (t : LocalTime) : Prop :=
  t.hour ≤ 23 ∧ t.minute ≤ 59 ∧ t.second ≤ 60

instance (t : LocalTime) : Decidable t.ClockExists :=
  inferInstanceAs (Decidable (_ ∧ _ ∧ _))

/-- The years that instants reach. -/
def YearInRange (year : Int) : Prop :=
  -262143 ≤ year ∧ year ≤ 262142

instance (year : Int) : Decidable (YearInRange year) :=
  inferInstanceAs (Decidable (_ ∧ _))

/-- The Unix seconds of a local time; a leap second counts as second 59. -/
def unixSeconds (t : LocalTime) : Int :=
  t.date.dayNumber * secondsPerDay +
    ((t.hour * 3600 + t.minute * 60 + min t.second 59 : Nat) : Int) - t.offset

/-- The nanosecond part of a local time; a leap second adds a full second. -/
def instantNanos (t : LocalTime) : Nat :=
  t.nanos + if t.second = 60 then nanosPerSecond else 0

/-- The instant of a local time: its fields must exist, and its offset must be shorter than a
day. -/
def toInstant (t : LocalTime) : Except ReadingFault Instant :=
  if ¬ (YearInRange t.date.year ∧ t.date.Exists ∧ t.ClockExists) then .error .outOfRange
  else if secondsPerDay ≤ t.offset.natAbs then .error .outOfRange
  else match Instant.ofParts? t.unixSeconds t.instantNanos with
    | some instant => .ok instant
    | none => .error .impossible

end LocalTime

end PeerRelay.Calendar
