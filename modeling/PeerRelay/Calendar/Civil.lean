/-!
# Civil dates

Dates of the proleptic Gregorian calendar and their day numbers, counted from 1 January 1970.

Both directions work on years that begin in March, so that the leap day closes its year and a
month starts a fixed number of days after its year does. A period of four hundred such years
always holds 146 097 days, which reduces every year to one of the first four hundred.
-/

namespace PeerRelay.Calendar

/-- A year, a month counted from 1 and a day of the month counted from 1. -/
structure Civil where
  year : Int
  month : Nat
  day : Nat
deriving DecidableEq, Repr

namespace Civil

/-- A year is a leap year when four divides it, unless a hundred divides it and four hundred
does not. -/
def isLeap (year : Int) : Bool :=
  year % 4 == 0 && (year % 100 != 0 || year % 400 == 0)

/-- The number of days of a month; none for a number that is no month. -/
def monthLength (year : Int) : Nat → Nat
  | 2 => if isLeap year then 29 else 28
  | 4 | 6 | 9 | 11 => 30
  | 1 | 3 | 5 | 7 | 8 | 10 | 12 => 31
  | _ => 0

/-- The date exists in the calendar. -/
def Exists (c : Civil) : Prop :=
  1 ≤ c.day ∧ c.day ≤ monthLength c.year c.month

instance (c : Civil) : Decidable c.Exists :=
  inferInstanceAs (Decidable (_ ∧ _))

/-- The days from 1 March of year 0 to 1 January 1970. -/
def epochOffset : Int := 719468

/-- The number of the date's day, counted from 1 January 1970. -/
def dayNumber (c : Civil) : Int :=
  let year := if c.month ≤ 2 then c.year - 1 else c.year
  let month : Int := if c.month ≤ 2 then c.month + 9 else c.month - 3
  let era := year / 400
  let yearOfEra := year % 400
  let dayOfYear := (153 * month + 2) / 5 + c.day - 1
  era * 146097 + (yearOfEra * 365 + yearOfEra / 4 - yearOfEra / 100 + dayOfYear) - epochOffset

/-- The date of a day number. -/
def ofDayNumber (n : Int) : Civil :=
  let shifted := n + epochOffset
  let era := shifted / 146097
  let dayOfEra := shifted % 146097
  let yearOfEra :=
    (dayOfEra - dayOfEra / 1460 + dayOfEra / 36524 - dayOfEra / 146096) / 365
  let dayOfYear := dayOfEra - (365 * yearOfEra + yearOfEra / 4 - yearOfEra / 100)
  let marchMonth := (5 * dayOfYear + 2) / 153
  let day := dayOfYear - (153 * marchMonth + 2) / 5 + 1
  let month := if marchMonth < 10 then marchMonth + 3 else marchMonth - 9
  let year := yearOfEra + era * 400
  ⟨if month ≤ 2 then year + 1 else year, month.toNat, day.toNat⟩

example : dayNumber ⟨1970, 1, 1⟩ = 0 := by decide
example : dayNumber ⟨2000, 2, 29⟩ = 11016 := by decide
example : ofDayNumber 11016 = ⟨2000, 2, 29⟩ := by decide
example : ofDayNumber (-719529) = ⟨-1, 12, 31⟩ := by decide

end Civil

end PeerRelay.Calendar
