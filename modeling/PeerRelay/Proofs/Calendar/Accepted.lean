import PeerRelay.Proofs.Calendar.DateText

/-!
# Dates that are read

A text of a date has a year of four digits and an offset of less than a day. The instant that it
denotes is therefore a day off at most, and its year in UTC may be −1 or 10000
(`year_of_decode`). Encoding such an instant gives a text that is not read any more
(`decode_encode_eq`): of all dates that are read, those are the only ones that cannot be passed on.
A leap second that is read closes its minute (`leapClosesMinute_of_decode`), so that all others are
read again as they were, but for what is finer than a millisecond.
-/

namespace PeerRelay.Calendar

/-! ### Years near the ends -/

namespace Civil

/-- The days of the years that have four digits. -/
theorem dayNumber_bounds {c : Civil} (h : c.Exists) (h0 : 0 ≤ c.year) (h1 : c.year ≤ 9999) :
    newYear 0 ≤ c.dayNumber ∧ c.dayNumber < newYear 10000 := by
  obtain ⟨hfirst, hlast⟩ := h.within
  have hsucc : c.year + 1 ≤ 10000 := by omega
  exact ⟨(newYear_le_iff.2 h0).trans hfirst,
    hlast.trans_le (newYear_le_iff.2 hsucc)⟩

/-- A day next to these is in a year next to them. -/
theorem year_ofDayNumber_bounds {n : Int} (h0 : newYear 0 - 1 ≤ n) (h1 : n ≤ newYear 10000) :
    -1 ≤ (ofDayNumber n).year ∧ (ofDayNumber n).year ≤ 10000 := by
  have hbefore : newYear (-1) ≤ newYear 0 - 1 := by decide
  have hafter : newYear 10000 < newYear (10000 + 1) := newYear_lt_iff.2 (Int.lt_succ 10000)
  refine ⟨le_year_ofDayNumber_iff.2 (hbefore.trans h0), ?_⟩
  exact Int.lt_add_one_iff.1 (year_ofDayNumber_lt_iff.2 (h1.trans_lt hafter))

end Civil

namespace LocalTime

variable {l : LocalTime} {t : Instant}

/-- What the local time of an instant is like. -/
theorem of_toInstant (h : l.toInstant = .ok t) :
    l.date.Exists ∧ l.ClockExists ∧ (l.offset.natAbs : Int) < secondsPerDay ∧
      t.seconds = l.unixSeconds ∧ t.LeapClosesMinute := by
  rw [toInstant] at h
  split at h
  · contradiction
  · rename_i hfields
    obtain ⟨-, hdate, hclock⟩ := not_not.1 hfields
    split at h
    · contradiction
    · rename_i hoffset
      refine ⟨hdate, hclock, by omega, ?_⟩
      split at h
      · rename_i t' hparts
        obtain rfl := Except.ok.inj h
        exact Instant.of_ofParts? hparts
      · contradiction

/-- An offset moves a local time by a day at most. -/
theorem day_of_toInstant (h : l.toInstant = .ok t) :
    l.date.dayNumber - 1 ≤ t.seconds / secondsPerDay ∧
      t.seconds / secondsPerDay ≤ l.date.dayNumber + 1 := by
  obtain ⟨-, ⟨hhour, hminute, -⟩, hoffset, hseconds, -⟩ := of_toInstant h
  rw [hseconds, unixSeconds]
  unfold secondsPerDay at *
  omega

end LocalTime

namespace DateText

/-! ### Reading a date -/

/-- As many digits as are read make a number of this width. -/
theorem lt_of_digits {n value : Nat} {cs rest : List Char} (h : digits n cs = .ok (value, rest)) :
    value < 10 ^ n := by
  induction n generalizing value rest with
  | zero =>
    obtain ⟨rfl, -⟩ := Prod.mk.inj (Except.ok.inj h)
    exact Nat.one_pos
  | succ n ih =>
    rw [digits, bind_eq_ok] at h
    obtain ⟨⟨high, rest'⟩, hhigh, h⟩ := h
    have hlt := ih hhigh
    dsimp only at h
    split at h
    · contradiction
    · rename_i c tail
      split at h
      · rename_i hc
        obtain ⟨rfl, -⟩ := Prod.mk.inj (Except.ok.inj h)
        have hvalue : Text.digitValue c ≤ 9 := by
          simp only [Text.isDigit, Bool.and_eq_true, decide_eq_true_eq] at hc
          have hle : c.toNat ≤ '9'.toNat := hc.2
          have h9 : '9'.toNat = 57 := rfl
          have h0 : '0'.toNat = 48 := rfl
          rw [Text.digitValue]
          omega
        rw [Nat.pow_succ]
        omega
      · contradiction

/-- A text that is read gives a local time whose year has four digits. -/
theorem exists_local {raw : String} {t : Instant} (h : decode raw = .ok t) :
    ∃ l : LocalTime, 0 ≤ l.date.year ∧ l.date.year ≤ 9999 ∧ l.toInstant = .ok t := by
  rw [decode] at h
  split at h
  · contradiction
  · obtain ⟨⟨year, rest⟩, hyear, h⟩ := bind_eq_ok.1 h
    obtain ⟨rest, -, h⟩ := bind_eq_ok.1 h
    obtain ⟨⟨month, rest⟩, -, h⟩ := bind_eq_ok.1 h
    obtain ⟨rest, -, h⟩ := bind_eq_ok.1 h
    obtain ⟨⟨day, rest⟩, -, h⟩ := bind_eq_ok.1 h
    dsimp only at h
    split at h
    · obtain ⟨rest, -, h⟩ := bind_eq_ok.1 h
      obtain ⟨⟨hour, rest⟩, -, h⟩ := bind_eq_ok.1 h
      obtain ⟨rest, -, h⟩ := bind_eq_ok.1 h
      obtain ⟨⟨minute, rest⟩, -, h⟩ := bind_eq_ok.1 h
      obtain ⟨rest, -, h⟩ := bind_eq_ok.1 h
      obtain ⟨⟨second, rest⟩, -, h⟩ := bind_eq_ok.1 h
      obtain ⟨⟨nanos, rest⟩, -, h⟩ := bind_eq_ok.1 h
      dsimp only at h
      split at h
      · obtain ⟨⟨offset, rest⟩, -, h⟩ := bind_eq_ok.1 h
        dsimp only at h
        split at h
        · have hlt : year < 10 ^ 4 := lt_of_digits hyear
          exact ⟨_, Int.natCast_nonneg year, by dsimp only; omega, h⟩
        · contradiction
      · contradiction
    · contradiction

/-- An instant that is read is in a year of four digits, or next to one. -/
theorem year_of_decode {raw : String} {t : Instant} (h : decode raw = .ok t) :
    -1 ≤ t.date.year ∧ t.date.year ≤ 10000 := by
  obtain ⟨l, hyear0, hyear1, hl⟩ := exists_local h
  obtain ⟨hfirst, hlast⟩ := Civil.dayNumber_bounds (LocalTime.of_toInstant hl).1 hyear0 hyear1
  obtain ⟨hday0, hday1⟩ := LocalTime.day_of_toInstant hl
  exact Civil.year_ofDayNumber_bounds (by omega) (by omega)

theorem leapClosesMinute_of_decode {raw : String} {t : Instant} (h : decode raw = .ok t) :
    t.LeapClosesMinute := by
  obtain ⟨l, -, -, hl⟩ := exists_local h
  exact (LocalTime.of_toInstant hl).2.2.2.2

/-- What becomes of an instant that is encoded and read again. -/
theorem decode_encode_eq (t : Instant) :
    decode (encode t) = if FourDigitYear t then .ok t.asRead else .error .invalid := by
  split
  · rename_i hyear
    exact decode_encode hyear
  · rename_i hyear
    exact decode_encode_of_signed hyear

end DateText

end PeerRelay.Calendar
