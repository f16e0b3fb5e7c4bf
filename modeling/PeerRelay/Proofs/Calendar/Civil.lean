import Mathlib.Order.Monotone.Basic
import Mathlib.Tactic.IntervalCases
import PeerRelay.Calendar.Instant

/-!
# Day numbers and dates

Every day number is that of a date that exists (`dayNumber_ofDayNumber`, `exists_ofDayNumber`). The
argument follows the definition: an era has 146 097 days, its years are found from the day within
the era, and the months from the day within a year that begins in March. The other way, a date is
in the year whose first day and whose successor's first day enclose it (`le_year_ofDayNumber_iff`,
`year_ofDayNumber_lt_iff`).
-/

namespace PeerRelay.Calendar.Civil

/-! ### Within an era -/

/-- The year, counted within the era, of a day within an era. -/
def yearOfEra (day : Int) : Int :=
  (day - day / 1460 + day / 36524 - day / 146096) / 365

/-- The day of the year, which begins in March, of a day within an era. -/
def dayOfYear (day : Int) : Int :=
  day - (365 * yearOfEra day + yearOfEra day / 4 - yearOfEra day / 100)

section Era

variable {day : Int} (h0 : 0 ≤ day) (h1 : day < 146097)

include h0 h1

/-- An era is one of four centuries of which the last is a day longer. -/
theorem centuryOfEra : yearOfEra day / 100 = day / 36524 - day / 146096 := by
  rw [yearOfEra]
  have hlast : day / 146096 = 0 ∨ day / 146096 = 1 := by omega
  have hcentury : day / 36524 = 0 ∨ day / 36524 = 1 ∨ day / 36524 = 2 ∨ day / 36524 = 3 ∨
      day / 36524 = 4 := by omega
  -- both quotients take few values, and each pair of them fixes the century
  rcases hlast with hlast | hlast <;>
    rcases hcentury with hcentury | hcentury | hcentury | hcentury | hcentury <;> omega

theorem yearOfEra_bounds : 0 ≤ yearOfEra day ∧ yearOfEra day ≤ 399 := by
  rw [yearOfEra]
  omega

theorem dayOfYear_bounds : 0 ≤ dayOfYear day ∧ dayOfYear day ≤ 365 := by
  have hcentury := centuryOfEra h0 h1
  rw [dayOfYear]
  unfold yearOfEra at hcentury ⊢
  -- four years take 1460 days, and the fifth of them never begins before its four years are over
  have hfour : day / 1460 - (day - day / 1460 + day / 36524 - day / 146096) / 365 / 4 = 0 ∨
      day / 1460 - (day - day / 1460 + day / 36524 - day / 146096) / 365 / 4 = 1 := by omega
  rcases hfour with hfour | hfour <;> omega

/-- Only a year before a leap day has a 366th day. -/
theorem leap_of_dayOfYear (h : dayOfYear day = 365) :
    (yearOfEra day + 1) % 4 = 0 ∧
      ((yearOfEra day + 1) % 100 ≠ 0 ∨ (yearOfEra day + 1) % 400 = 0) := by
  have hcentury := centuryOfEra h0 h1
  have hbounds := yearOfEra_bounds h0 h1
  have hyear : day - day / 1460 + day / 36524 - day / 146096 < 365 * yearOfEra day + 365 := by
    rw [yearOfEra]
    omega
  rw [dayOfYear] at h
  generalize yearOfEra day = year at *
  -- within a cycle of four years only the last one is long enough
  have hfour : (year + 1) % 4 = 0 := by
    by_contra hnot
    have hyears : year % 4 ≤ 2 := by omega
    have hcycle : day / 1460 = year / 4 := by omega
    omega
  refine ⟨hfour, ?_⟩
  by_contra hnot
  -- the years before a century that is no leap year end a day early
  have hlast : year = 99 ∨ year = 199 ∨ year = 299 := by omega
  rcases hlast with rfl | rfl | rfl <;> omega

end Era

/-! ### Months of a year that begins in March -/

/-- The month, counted from March as 0, of a day of such a year. -/
def marchMonth (day : Int) : Int :=
  (5 * day + 2) / 153

/-- The day of the month, counted from 1, of a day of such a year. -/
def dayOfMonth (day : Int) : Int :=
  day - (153 * marchMonth day + 2) / 5 + 1

theorem marchMonth_bounds {day : Int} (h0 : 0 ≤ day) (h1 : day ≤ 365) :
    0 ≤ marchMonth day ∧ marchMonth day ≤ 11 := by
  rw [marchMonth]
  omega

/-- A month has as many days as the calendar says, and its last one may be a leap day. -/
theorem dayOfMonth_bounds {day year : Int} (h0 : 0 ≤ day) (h1 : day ≤ 365)
    (hleap : day = 365 → isLeap year = true) :
    1 ≤ dayOfMonth day ∧ dayOfMonth day ≤ monthLength year
      (if marchMonth day < 10 then marchMonth day + 3 else marchMonth day - 9).toNat := by
  have hmonth := marchMonth_bounds h0 h1
  have hmonth' : marchMonth day = (5 * day + 2) / 153 := rfl
  rw [dayOfMonth]
  generalize marchMonth day = month at *
  obtain ⟨hm0, hm1⟩ := hmonth
  refine ⟨by omega, ?_⟩
  interval_cases month
  case «11» =>
    -- the year closes with February
    show day - 337 + 1 ≤ ((if isLeap year then 29 else 28 : Nat) : Int)
    by_cases hlast : day = 365
    · rw [hleap hlast, hlast]
      decide
    · split <;> omega
  all_goals
    simp [monthLength]
    omega

/-- The month of the calendar of a month counted from March. -/
def calendarMonth (month : Int) : Int :=
  if month < 10 then month + 3 else month - 9

/-- The year of the calendar, which begins two months before the following March. -/
def calendarYear (year month : Int) : Int :=
  if calendarMonth month ≤ 2 then year + 1 else year

/-- The date of a day number, found year by year and month by month. -/
theorem ofDayNumber_eq (n : Int) {day month : Int} (hday : day = (n + epochOffset) % 146097)
    (hmonth : month = marchMonth (dayOfYear day)) :
    ofDayNumber n =
      ⟨calendarYear (yearOfEra day + (n + epochOffset) / 146097 * 400) month,
        (calendarMonth month).toNat, (dayOfMonth (dayOfYear day)).toNat⟩ := by
  subst hday hmonth
  rfl

/-- The day number of a date that is given by a month counted from March. -/
theorem dayNumber_calendar {year month day : Int} (h0 : 0 ≤ month) (h1 : month ≤ 11)
    (hday : 1 ≤ day) :
    dayNumber ⟨calendarYear year month, (calendarMonth month).toNat, day.toNat⟩ =
      year / 400 * 146097 + (year % 400 * 365 + year % 400 / 4 - year % 400 / 100 +
        ((153 * month + 2) / 5 + day - 1)) - epochOffset := by
  have htoNat : (day.toNat : Int) = day := Int.toNat_of_nonneg (by omega)
  unfold dayNumber calendarYear
  by_cases hm : month < 10
  · have hmonth : calendarMonth month = month + 3 := if_pos hm
    have hcast : ((month + 3).toNat : Int) = month + 3 := Int.toNat_of_nonneg (by omega)
    simp only [hmonth, htoNat, hcast]
    rw [if_neg (show ¬ (month + 3).toNat ≤ 2 by omega), if_neg (by omega),
      if_neg (show ¬ (month + 3).toNat ≤ 2 by omega), show month + 3 - 3 = month by omega]
  · have hmonth : calendarMonth month = month - 9 := if_neg hm
    have hcast : ((month - 9).toNat : Int) = month - 9 := Int.toNat_of_nonneg (by omega)
    simp only [hmonth, htoNat, hcast]
    rw [if_pos (show (month - 9).toNat ≤ 2 by omega), if_pos (by omega),
      if_pos (show (month - 9).toNat ≤ 2 by omega), show month - 9 + 9 = month by omega,
      show year + 1 - 1 = year by omega]

section DayNumber

variable (n : Int)

/-- A day number is that of its date. -/
theorem dayNumber_ofDayNumber : dayNumber (ofDayNumber n) = n := by
  have h0 : 0 ≤ (n + epochOffset) % 146097 := by omega
  have h1 : (n + epochOffset) % 146097 < 146097 := by omega
  have hyear := yearOfEra_bounds h0 h1
  have hdays := dayOfYear_bounds h0 h1
  have hmonth := marchMonth_bounds hdays.1 hdays.2
  have hday : 1 ≤ dayOfMonth (dayOfYear ((n + epochOffset) % 146097)) := by
    unfold dayOfMonth marchMonth
    omega
  rw [ofDayNumber_eq n rfl rfl, dayNumber_calendar hmonth.1 hmonth.2 hday]
  unfold dayOfMonth dayOfYear
  omega

/-- The date of a day number exists. -/
theorem exists_ofDayNumber : (ofDayNumber n).Exists := by
  have h0 : 0 ≤ (n + epochOffset) % 146097 := by omega
  have h1 : (n + epochOffset) % 146097 < 146097 := by omega
  have hdays := dayOfYear_bounds h0 h1
  have hleap : dayOfYear ((n + epochOffset) % 146097) = 365 →
      isLeap (ofDayNumber n).year = true := by
    intro hlast
    obtain ⟨hfour, hcentury⟩ := leap_of_dayOfYear h0 h1 hlast
    -- a year that begins in March has its leap day in the next year of the calendar
    rw [ofDayNumber_eq n rfl rfl, hlast, show marchMonth 365 = 11 from rfl]
    show isLeap (_ + 1) = true
    simp only [isLeap, Bool.and_eq_true, Bool.or_eq_true, beq_iff_eq, bne_iff_ne, ne_eq]
    omega
  have hbounds := dayOfMonth_bounds hdays.1 hdays.2 hleap
  have hdate := ofDayNumber_eq n rfl rfl
  constructor
  · rw [hdate]
    show 1 ≤ Int.toNat _
    omega
  · rw [show (ofDayNumber n).month = _ from congrArg Civil.month hdate,
      show (ofDayNumber n).day = _ from congrArg Civil.day hdate]
    exact Int.toNat_le.2 hbounds.2

end DayNumber

/-- A date that exists has a month of the calendar and at most 31 days. -/
theorem Exists.bounds {c : Civil} (h : c.Exists) : 1 ≤ c.month ∧ c.month ≤ 12 ∧ c.day ≤ 31 := by
  obtain ⟨hfirst, hlast⟩ := h
  unfold monthLength at hlast
  split at hlast
  case h_1 => split at hlast <;> omega
  all_goals omega

/-! ### First days of years -/

/-- The number of the first day of a year. -/
def newYear (year : Int) : Int :=
  dayNumber ⟨year, 1, 1⟩

/-- A year has 365 days, and a leap year one more. -/
theorem newYear_succ (year : Int) :
    newYear (year + 1) = newYear year + if isLeap year then 366 else 365 := by
  have hleap : isLeap year = true ↔ year % 4 = 0 ∧ (year % 100 ≠ 0 ∨ year % 400 = 0) := by
    simp [isLeap]
  simp only [newYear, dayNumber, hleap]
  split <;> omega

theorem newYear_lt_iff {year year' : Int} : newYear year < newYear year' ↔ year < year' := by
  refine (strictMono_int_of_lt_succ fun year ↦ ?_).lt_iff_lt
  rw [newYear_succ]
  split <;> omega

theorem newYear_le_iff {year year' : Int} : newYear year ≤ newYear year' ↔ year ≤ year' := by
  rw [← not_lt, newYear_lt_iff, not_lt]

/-- A date that exists is within its year. -/
theorem Exists.within {c : Civil} (h : c.Exists) :
    newYear c.year ≤ c.dayNumber ∧ c.dayNumber < newYear (c.year + 1) := by
  obtain ⟨hmonth, hmonth', hday'⟩ := h.bounds
  have hday := h.1
  obtain ⟨year, month, day⟩ := c
  simp only [newYear, dayNumber] at *
  split <;> omega

section Years

variable {year n : Int}

/-- A day is in a year or a later one if the year's first day is not after it. -/
theorem le_year_ofDayNumber_iff : year ≤ (ofDayNumber n).year ↔ newYear year ≤ n := by
  obtain ⟨hfirst, hlast⟩ := (exists_ofDayNumber n).within
  rw [dayNumber_ofDayNumber] at hfirst hlast
  constructor
  · intro hle
    exact (newYear_le_iff.2 hle).trans hfirst
  · intro hle
    have hlt : year < (ofDayNumber n).year + 1 :=
      newYear_lt_iff.1 (hle.trans_lt hlast)
    omega

/-- A day is in an earlier year if it is before the year's first day. -/
theorem year_ofDayNumber_lt_iff : (ofDayNumber n).year < year ↔ n < newYear year := by
  rw [← not_le, le_year_ofDayNumber_iff, not_le]

end Years

end PeerRelay.Calendar.Civil
