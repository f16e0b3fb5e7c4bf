import PeerRelay.Calendar.Civil
import PeerRelay.Text.Digit

/-!
# Instants

A point of time with nanosecond precision, in Unix seconds. A leap second has a nanosecond part of a
full second or more; the order on instants is the lexicographic order of the two parts, so a leap
second comes after the second that it prolongs. Any second may be prolonged, but only a leap second
that closes its minute (`Instant.LeapClosesMinute`) is made from Unix time or read from a text. In
the middle of a minute it is printed as the second that follows it, and cannot be told from it.

The range is that of the years −262143 to 262142. An instant outside the range is no value of the
type.
-/

namespace PeerRelay.Calendar

/-- The number of nanoseconds of a second. -/
def nanosPerSecond : Nat := 1000000000

/-- The number of seconds of a day without leap seconds. -/
def secondsPerDay : Int := 86400

/-- The second part of the first instant, the start of year −262143. -/
def firstSecond : Int := -8334601228800

/-- The second part of the last instant, the end of year 262142. -/
def lastSecond : Int := 8210266876799

/-- A point of time: Unix seconds and the nanoseconds within the second. -/
structure Instant where
  seconds : Int
  nanos : Nat
  first_le : firstSecond ≤ seconds
  le_last : seconds ≤ lastSecond
  nanos_lt : nanos < 2 * nanosPerSecond
deriving DecidableEq

namespace Instant

/-- The two parts form an instant that a text may denote: a leap second closes its minute. -/
def Representable (seconds : Int) (nanos : Nat) : Prop :=
  firstSecond ≤ seconds ∧ seconds ≤ lastSecond ∧ nanos < 2 * nanosPerSecond ∧
    (nanosPerSecond ≤ nanos → seconds % 60 = 59)

instance (seconds : Int) (nanos : Nat) : Decidable (Representable seconds nanos) :=
  inferInstanceAs (Decidable (_ ∧ _ ∧ _ ∧ (_ → _)))

/-- The instant of two parts, if they form one. -/
def ofParts? (seconds : Int) (nanos : Nat) : Option Instant :=
  if h : Representable seconds nanos then
    some ⟨seconds, nanos, h.1, h.2.1, h.2.2.1⟩
  else
    none

/-- The start of the Unix era. -/
def epoch : Instant where
  seconds := 0
  nanos := 0
  first_le := by decide
  le_last := by decide
  nanos_lt := by decide

instance : Inhabited Instant := ⟨epoch⟩

/-- Instants are ordered by their seconds, then by their nanoseconds. -/
instance : LE Instant :=
  ⟨fun a b => a.seconds < b.seconds ∨ (a.seconds = b.seconds ∧ a.nanos ≤ b.nanos)⟩

instance (a b : Instant) : Decidable (a ≤ b) :=
  inferInstanceAs (Decidable (_ ∨ (_ ∧ _)))

/-- The date of the instant's day in UTC. -/
def date (t : Instant) : Civil :=
  Civil.ofDayNumber (t.seconds / secondsPerDay)

/-- The second of the instant's day. -/
def secondOfDay (t : Instant) : Nat :=
  (t.seconds % secondsPerDay).toNat

/-- Whether the instant lies in a leap second. -/
def isLeap (t : Instant) : Bool :=
  nanosPerSecond ≤ t.nanos

/-- If the instant lies in a leap second, then in one that closes its minute. -/
def LeapClosesMinute (t : Instant) : Prop :=
  t.isLeap = true → t.seconds % 60 = 59

instance (t : Instant) : Decidable t.LeapClosesMinute :=
  inferInstanceAs (Decidable (_ → _))

/-- The nanoseconds after the last full second. -/
def fraction (t : Instant) : Nat :=
  t.nanos % nanosPerSecond

/-! ### Printing -/

/-- How many digits of the fraction are printed. -/
inductive Precision where
  /-- Exactly three digits; the rest is cut off. -/
  | millis
  /-- The fewest of 0, 3, 6 and 9 digits that lose nothing. -/
  | fewest
deriving DecidableEq, Repr

/-- How the time zone of a printed instant, always UTC, is spelled. -/
inductive ZoneMark where
  /-- The letter `Z`. -/
  | letter
  /-- The numeric form `+00:00`. -/
  | numeric
deriving DecidableEq, Repr

/-- The printed fraction, with its point. -/
def Precision.render (nanos : Nat) : Precision → String
  | .millis => "." ++ Text.padded 3 (nanos / 1000000)
  | .fewest =>
    if nanos = 0 then ""
    else if nanos % 1000000 = 0 then "." ++ Text.padded 3 (nanos / 1000000)
    else if nanos % 1000 = 0 then "." ++ Text.padded 6 (nanos / 1000)
    else "." ++ Text.padded 9 nanos

/-- The printed time zone. -/
def ZoneMark.render : ZoneMark → String
  | .letter => "Z"
  | .numeric => "+00:00"

/-- A year with at least four digits; a sign marks a year before 0 or after 9999. -/
def renderYear (year : Int) : String :=
  if year < 0 then "-" ++ Text.padded 4 year.natAbs
  else if year ≤ 9999 then Text.padded 4 year.toNat
  else "+" ++ Text.padded 4 year.toNat

/-- The date of a day as year, month and day with hyphens. -/
def renderDate (c : Civil) : String :=
  renderYear c.year ++ "-" ++ Text.padded 2 c.month ++ "-" ++ Text.padded 2 c.day

/-- The time of day as hour, minute and second with colons; a leap second is one second more than
the one that it prolongs, which is second 60 at the end of a minute. -/
def renderClock (secondOfDay : Nat) (leap : Bool) : String :=
  Text.padded 2 (secondOfDay / 3600) ++ ":" ++ Text.padded 2 (secondOfDay / 60 % 60) ++ ":" ++
    Text.padded 2 (secondOfDay % 60 + if leap then 1 else 0)

/-- The instant in UTC in the form of RFC 3339. -/
def render (t : Instant) (precision : Precision) (zone : ZoneMark) : String :=
  renderDate t.date ++ "T" ++ renderClock t.secondOfDay t.isLeap ++
    precision.render t.fraction ++ zone.render

end Instant

end PeerRelay.Calendar
