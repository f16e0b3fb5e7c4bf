import PeerRelay.Calendar.Rfc3339
import PeerRelay.Proofs.Calendar.Civil
import PeerRelay.Proofs.Text.Digits

/-!
# The fields of an instant

An instant and its fields in UTC determine each other: the date exists, the clock shows the second
of the day, and the local time made of both is the instant again (`toInstant_utc`). All of this
needs that a leap second of the instant closes its minute. One in the middle of a minute is shown as
the second behind it (`Instant.render_carried`), so what is shown is an instant all the same, but
another one.
-/

namespace PeerRelay.Calendar

namespace Instant

variable (t : Instant)

theorem date_exists : t.date.Exists :=
  Civil.exists_ofDayNumber _

theorem secondOfDay_lt : t.secondOfDay < 86400 := by
  unfold secondOfDay secondsPerDay
  omega

/-- The day and the second of the day give the seconds again. -/
theorem seconds_eq : t.date.dayNumber * secondsPerDay + t.secondOfDay = t.seconds := by
  rw [date, Civil.dayNumber_ofDayNumber, secondOfDay,
    Int.toNat_of_nonneg (Int.emod_nonneg _ (by decide))]
  exact Int.mul_comm _ _ ▸ Int.mul_ediv_add_emod _ _

theorem fraction_lt : t.fraction < nanosPerSecond :=
  Nat.mod_lt _ (by decide)

theorem nanos_eq : t.fraction + (if t.isLeap then nanosPerSecond else 0) = t.nanos := by
  have hlt := t.nanos_lt
  unfold fraction isLeap nanosPerSecond at *
  split
  · simp_all
    omega
  · simp_all

variable {t} in
/-- A leap second is the last of its minute. -/
theorem second_of_isLeap (hcloses : t.LeapClosesMinute) (h : t.isLeap = true) :
    t.secondOfDay % 60 = 59 := by
  have hminute := hcloses h
  unfold secondOfDay secondsPerDay
  omega

variable {t} in
theorem ofParts?_self (hcloses : t.LeapClosesMinute) : ofParts? t.seconds t.nanos = some t :=
  dif_pos ⟨t.first_le, t.le_last, t.nanos_lt, fun h ↦ hcloses (decide_eq_true h)⟩

variable {t} in
/-- Parts form an instant only with a leap second that closes its minute. -/
theorem of_ofParts? {seconds : Int} {nanos : Nat} (h : ofParts? seconds nanos = some t) :
    t.seconds = seconds ∧ t.LeapClosesMinute := by
  rw [ofParts?] at h
  split at h
  · rename_i hparts
    cases h
    exact ⟨rfl, fun hleap ↦ hparts.2.2.2 (of_decide_eq_true hleap)⟩
  · cases h

/-- The instant without what is finer than a millisecond. -/
def cutToMillis : Instant where
  seconds := t.seconds
  nanos := t.nanos - t.nanos % 1000000
  first_le := t.first_le
  le_last := t.le_last
  nanos_lt := Nat.lt_of_le_of_lt (Nat.sub_le _ _) t.nanos_lt

@[simp] theorem nanos_cutToMillis : t.cutToMillis.nanos = t.nanos - t.nanos % 1000000 := rfl

@[simp] theorem date_cutToMillis : t.cutToMillis.date = t.date := rfl

@[simp] theorem secondOfDay_cutToMillis : t.cutToMillis.secondOfDay = t.secondOfDay := rfl

@[simp] theorem isLeap_cutToMillis : t.cutToMillis.isLeap = t.isLeap := by
  rw [Bool.eq_iff_iff, isLeap, isLeap, decide_eq_true_iff, decide_eq_true_iff, nanos_cutToMillis]
  rw [nanosPerSecond]
  omega

theorem ext_parts {t t' : Instant} (hseconds : t.seconds = t'.seconds)
    (hnanos : t.nanos = t'.nanos) : t = t' := by
  cases t
  cases t'
  cases hseconds
  cases hnanos
  rfl

@[simp] theorem cutToMillis_cutToMillis : t.cutToMillis.cutToMillis = t.cutToMillis :=
  ext_parts rfl (by rw [nanos_cutToMillis, nanos_cutToMillis]; omega)

theorem fraction_cutToMillis : t.cutToMillis.fraction = t.fraction / 1000000 * 1000000 := by
  rw [fraction, fraction, nanos_cutToMillis]
  rw [nanosPerSecond]
  omega

@[simp] theorem leapClosesMinute_cutToMillis :
    t.cutToMillis.LeapClosesMinute ↔ t.LeapClosesMinute := by
  rw [LeapClosesMinute, isLeap_cutToMillis]
  exact Iff.rfl

/-! ### Leap seconds in the middle of a minute -/

/-- The instant as it is shown: a leap second in the middle of a minute is the second that follows
the one it prolongs. -/
def carried : Instant :=
  if h : t.isLeap = true ∧ t.seconds % 60 ≠ 59 then {
    seconds := t.seconds + 1
    nanos := t.nanos - nanosPerSecond
    first_le := by have := t.first_le; omega
    -- the last second of all closes its minute
    le_last := by have := t.le_last; unfold lastSecond at *; omega
    nanos_lt := Nat.lt_of_le_of_lt (Nat.sub_le _ _) t.nanos_lt }
  else t

variable {t} in
theorem carried_eq (h : t.isLeap = true) (hmiddle : t.seconds % 60 ≠ 59) :
    t.carried.seconds = t.seconds + 1 ∧ t.carried.nanos = t.nanos - nanosPerSecond := by
  rw [carried, dif_pos ⟨h, hmiddle⟩]
  exact ⟨rfl, rfl⟩

variable {t} in
theorem LeapClosesMinute.carried (h : t.LeapClosesMinute) : t.carried = t :=
  dif_neg fun ⟨hleap, hmiddle⟩ ↦ hmiddle (h hleap)

theorem leapClosesMinute_carried : t.carried.LeapClosesMinute := by
  by_cases h : t.LeapClosesMinute
  · rwa [h.carried]
  · obtain ⟨hleap, hmiddle⟩ := Classical.not_imp.1 h
    obtain ⟨-, hnanos⟩ := carried_eq hleap hmiddle
    have hlt := t.nanos_lt
    intro hagain
    have hle : nanosPerSecond ≤ t.carried.nanos := of_decide_eq_true hagain
    omega

/-- An instant is shown as another one exactly if it is within a leap second in the middle of a
minute. -/
theorem carried_eq_self_iff : t.carried = t ↔ t.LeapClosesMinute :=
  ⟨fun h ↦ h ▸ t.leapClosesMinute_carried, LeapClosesMinute.carried⟩

@[simp] theorem date_carried : t.carried.date = t.date := by
  by_cases h : t.LeapClosesMinute
  · rw [h.carried]
  · obtain ⟨hleap, hmiddle⟩ := Classical.not_imp.1 h
    have hday : (t.seconds + 1) / secondsPerDay = t.seconds / secondsPerDay := by
      unfold secondsPerDay
      omega
    rw [date, date, (carried_eq hleap hmiddle).1, hday]

/-- The second that follows is in the same minute, so that the date and the clock are the same. -/
theorem render_carried (precision : Precision) (zone : ZoneMark) :
    t.carried.render precision zone = t.render precision zone := by
  by_cases h : t.LeapClosesMinute
  · rw [h.carried]
  obtain ⟨hleap, hmiddle⟩ := Classical.not_imp.1 h
  obtain ⟨hseconds, hnanos⟩ := carried_eq hleap hmiddle
  have hle : nanosPerSecond ≤ t.nanos := of_decide_eq_true hleap
  have hlt := t.nanos_lt
  have hfraction : t.carried.fraction = t.fraction := by
    unfold fraction nanosPerSecond at *
    omega
  have hplain : t.carried.isLeap = false := decide_eq_false (by omega)
  have hclock : t.carried.secondOfDay = t.secondOfDay + 1 := by
    unfold secondOfDay secondsPerDay
    omega
  have hsecond : t.secondOfDay % 60 ≠ 59 := by
    unfold secondOfDay secondsPerDay
    omega
  rw [render, render, date_carried, hfraction, renderClock, renderClock, hplain, hleap, hclock,
    show (t.secondOfDay + 1) / 3600 = t.secondOfDay / 3600 by omega,
    show (t.secondOfDay + 1) / 60 % 60 = t.secondOfDay / 60 % 60 by omega,
    show (t.secondOfDay + 1) % 60 = t.secondOfDay % 60 + 1 by omega]
  rfl

/-- An instant as it is read again where milliseconds are written. -/
def asRead : Instant :=
  t.carried.cutToMillis

theorem leapClosesMinute_asRead : t.asRead.LeapClosesMinute :=
  t.carried.leapClosesMinute_cutToMillis.2 t.leapClosesMinute_carried

variable {t} in
theorem LeapClosesMinute.asRead (h : t.LeapClosesMinute) : t.asRead = t.cutToMillis := by
  rw [Instant.asRead, h.carried]

theorem asRead_eq_cutToMillis_iff : t.asRead = t.cutToMillis ↔ t.LeapClosesMinute :=
  ⟨fun h ↦ t.leapClosesMinute_cutToMillis.1 (h ▸ t.leapClosesMinute_asRead),
    LeapClosesMinute.asRead⟩

@[simp] theorem asRead_asRead : t.asRead.asRead = t.asRead := by
  rw [t.leapClosesMinute_asRead.asRead, asRead, cutToMillis_cutToMillis]

end Instant

namespace LocalTime

/-- The clock that shows the second of a day, with a sixtieth second if it is a leap second. -/
def utc (date : Civil) (secondOfDay : Nat) (leap : Bool) (nanos : Nat) : LocalTime :=
  ⟨date, secondOfDay / 3600, secondOfDay / 60 % 60, secondOfDay % 60 + (if leap then 1 else 0),
    nanos, 0⟩

section Instant

variable (t : Instant)

theorem clockExists_utc : (utc t.date t.secondOfDay t.isLeap t.fraction).ClockExists := by
  have hsecond := t.secondOfDay_lt
  refine ⟨?_, ?_, ?_⟩
  · show t.secondOfDay / 3600 ≤ 23
    omega
  · show t.secondOfDay / 60 % 60 ≤ 59
    omega
  · show t.secondOfDay % 60 + (if t.isLeap then 1 else 0) ≤ 60
    split <;> omega

variable {t}

/-- The sixtieth second counts as the fifty-ninth. -/
theorem unixSeconds_utc (hcloses : t.LeapClosesMinute) :
    (utc t.date t.secondOfDay t.isLeap t.fraction).unixSeconds = t.seconds := by
  have hshown : t.secondOfDay / 3600 * 3600 + t.secondOfDay / 60 % 60 * 60 +
      min (t.secondOfDay % 60 + (if t.isLeap then 1 else 0)) 59 = t.secondOfDay := by
    cases hleap : t.isLeap with
    | false =>
      rw [if_neg (by decide)]
      omega
    | true =>
      have hlast := Instant.second_of_isLeap hcloses hleap
      rw [if_pos rfl]
      omega
  rw [← t.seconds_eq]
  show _ + ((t.secondOfDay / 3600 * 3600 + t.secondOfDay / 60 % 60 * 60 +
    min (t.secondOfDay % 60 + (if t.isLeap then 1 else 0)) 59 : Nat) : Int) - 0 = _
  rw [hshown, Int.sub_zero]
  rfl

/-- What the sixtieth second is more than the fifty-ninth is counted in nanoseconds. -/
theorem instantNanos_utc (hcloses : t.LeapClosesMinute) :
    (utc t.date t.secondOfDay t.isLeap t.fraction).instantNanos = t.nanos := by
  have hsecond := t.secondOfDay_lt
  rw [← t.nanos_eq]
  show t.fraction + (if t.secondOfDay % 60 + (if t.isLeap then 1 else 0) = 60
    then nanosPerSecond else 0) = _
  cases hleap : t.isLeap with
  | false => rw [if_neg (by simp; omega), if_neg (by decide)]
  | true => rw [if_pos (by simp [Instant.second_of_isLeap hcloses hleap]), if_pos rfl]

/-- The local time of an instant is the instant again, if its year can be given. -/
theorem toInstant_utc (hyear : YearInRange t.date.year) (hcloses : t.LeapClosesMinute) :
    (utc t.date t.secondOfDay t.isLeap t.fraction).toInstant = .ok t := by
  have hoffset : ¬ secondsPerDay ≤
      ((utc t.date t.secondOfDay t.isLeap t.fraction).offset.natAbs : Int) :=
    show ¬ secondsPerDay ≤ 0 by decide
  rw [toInstant, if_neg (not_not_intro ⟨hyear, t.date_exists, clockExists_utc t⟩), if_neg hoffset,
    unixSeconds_utc hcloses, instantNanos_utc hcloses, Instant.ofParts?_self hcloses]

end Instant

end LocalTime

end PeerRelay.Calendar
