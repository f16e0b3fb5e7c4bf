import PeerRelay.Calendar.Reading

/-!
# The strict form of RFC 3339

`DateText.encode` writes an instant with millisecond precision, the form in which dates travel
in metadata and between instances. `DateText.decode` reads any text of RFC 3339: fields of fixed
width, any number of fraction digits, any offset. The year of the text has four digits, so an
instant whose UTC year is outside 0 to 9999 has an encoding that is not read back.
-/

namespace PeerRelay.Calendar.DateText

/-- Writes an instant in UTC with exactly three fraction digits, the rest cut off. -/
def encode (t : Instant) : String :=
  t.render .millis .letter

/-- Reads exactly `n` digits. -/
def digits : Nat → List Char → Except ReadingFault (Nat × List Char)
  | 0, cs => .ok (0, cs)
  | n + 1, cs => do
    let (high, rest) ← digits n cs
    match rest with
    | [] => .error .tooShort
    | c :: rest =>
      if Text.isDigit c then .ok (10 * high + Text.digitValue c, rest) else .error .invalid

/-- The bytes of a date and a time of fixed width, without fraction and offset. -/
def fixedWidth : Nat := 19

/-- Reads an instant. Faults are reported in the order of the text, except that a date is
checked as soon as its day is read and a time once its fraction is. -/
def decode (s : String) : Except ReadingFault Instant := do
  if s.utf8ByteSize < fixedWidth then throw .tooShort
  let (year, rest) ← digits 4 s.toList
  let rest ← Reading.mark '-' rest
  let (month, rest) ← digits 2 rest
  let rest ← Reading.mark '-' rest
  let (day, rest) ← digits 2 rest
  let date : Civil := ⟨year, month, day⟩
  unless date.Exists do throw .outOfRange
  let rest ← Reading.dateTimeMark rest
  let (hour, rest) ← digits 2 rest
  let rest ← Reading.mark ':' rest
  let (minute, rest) ← digits 2 rest
  let rest ← Reading.mark ':' rest
  let (second, rest) ← digits 2 rest
  let (nanos, rest) ← Reading.optionalFraction rest
  unless hour ≤ 23 ∧ minute ≤ 59 ∧ second ≤ 60 do throw .outOfRange
  let (offset, rest) ← Reading.offset (Reading.mark ':') rest
  unless rest.isEmpty do throw .tooLong
  LocalTime.toInstant ⟨date, hour, minute, second, nanos, offset⟩

end PeerRelay.Calendar.DateText
