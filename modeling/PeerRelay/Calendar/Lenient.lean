import PeerRelay.Calendar.Reading
import PeerRelay.Text.Blank

/-!
# The lenient form of dates

Dates inside JSON documents are read more freely than RFC 3339 allows: blanks may stand before
every field and separator, fields may have fewer digits, years may be signed and of any length,
and UTC may be spelled out. They are written with the fewest fraction digits that lose nothing,
so that every instant is read back as it was.
-/

namespace PeerRelay.Calendar.Lenient

/-- Writes an instant in UTC, losing nothing. -/
def encode (t : Instant) : String :=
  t.render .fewest .letter

/-- The largest number that a field of any width may have. -/
def fieldLimit : Nat := Nat.pow 2 63

/-- Reads a number of at least one and at most `width` digits (of any length for `none`). -/
def number (width : Option Nat) (cs : List Char) : Except ReadingFault (Nat × List Char) :=
  let limit := width.getD cs.length
  let digits := (cs.take limit).takeWhile Text.isDigit
  match cs, digits with
  | [], _ => .error .tooShort
  | _, [] => .error .invalid
  | _, _ =>
    let value := Text.ofDigits digits
    if value < fieldLimit then .ok (value, cs.drop digits.length) else .error .outOfRange

/-- Reads a field of at most two digits after optional blanks and checks its bounds. -/
def field (low high : Nat) (cs : List Char) : Except ReadingFault (Nat × List Char) := do
  let (value, rest) ← number (some 2) (Text.dropBlank cs)
  if low ≤ value ∧ value ≤ high then return (value, rest) else throw .outOfRange

/-- Reads a year after optional blanks: up to four digits, or a sign and any number of
digits. -/
def year (cs : List Char) : Except ReadingFault (Int × List Char) := do
  let (value, rest) ← match Text.dropBlank cs with
    | '-' :: rest => (fun (n, rest) => (-(n : Int), rest)) <$> number none rest
    | '+' :: rest => (fun (n, rest) => ((n : Int), rest)) <$> number none rest
    | rest => (fun (n, rest) => ((n : Int), rest)) <$> number (some 4) rest
  if -2147483648 ≤ value ∧ value ≤ 2147483647 then return (value, rest) else throw .outOfRange

/-- Reads a separator after optional blanks. -/
def separator (c : Char) (cs : List Char) : Except ReadingFault (List Char) :=
  Reading.mark c (Text.dropBlank cs)

/-- Reads the zone: the name of UTC in either case, or an offset whose hours and minutes may
be separated by any colons and blanks. -/
def zone (cs : List Char) : Except ReadingFault (Int × List Char) :=
  if (cs.take 3).map Char.toUpper = ['U', 'T', 'C'] then
    .ok (0, cs.drop 3)
  else
    Reading.offset (fun rest => .ok (rest.dropWhile fun c => c == ':' || Text.isBlank c)) cs

/-- Reads an instant; each field is checked as it is read, the date they form at the end. -/
def decode (s : String) : Except ReadingFault Instant := do
  let (year, rest) ← year s.toList
  let rest ← separator '-' rest
  let (month, rest) ← field 1 12 rest
  let rest ← separator '-' rest
  let (day, rest) ← field 1 31 rest
  let rest ← Reading.dateTimeMark rest
  let (hour, rest) ← field 0 23 rest
  let rest ← separator ':' rest
  let (minute, rest) ← field 0 59 rest
  let rest ← separator ':' rest
  let (second, rest) ← field 0 60 rest
  let (nanos, rest) ← Reading.optionalFraction rest
  let (offset, rest) ← zone (Text.dropBlank rest)
  unless (Text.dropBlank rest).isEmpty do throw .tooLong
  LocalTime.toInstant ⟨⟨year, month, day⟩, hour, minute, second, nanos, offset⟩

end PeerRelay.Calendar.Lenient
