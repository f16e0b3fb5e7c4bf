import PeerRelay.Proofs.Calendar.Accepted
import PeerRelay.Proofs.Message.Cut

/-!
# Which dates are read back

The text of a date is read back if its year in UTC has four digits and no sign, and then it is the
date cut to milliseconds, unless the date lies in a leap second in the middle of a minute. Whether a
year has four digits is a matter of Unix seconds only: the year of an instant is the one whose first
second is not after it and whose successor's is (`Instant.le_year_iff`, `Instant.year_lt_iff`), so
leap seconds, which count as second 59, belong to the year they close.

Nothing is said here about texts that no date is written as; see `DateText.year_of_decode` for them.
-/

namespace PeerRelay.Calendar

/-! ### Years in Unix seconds -/

namespace Instant

variable {t : Instant} {year : Int}

theorem le_year_iff : year ≤ t.date.year ↔ Civil.newYear year * secondsPerDay ≤ t.seconds := by
  rw [date, Civil.le_year_ofDayNumber_iff]
  exact Int.le_ediv_iff_mul_le (by decide)

theorem year_lt_iff : t.date.year < year ↔ t.seconds < Civil.newYear year * secondsPerDay := by
  rw [← not_le, le_year_iff, not_le]

end Instant

namespace DateText

variable {t : Instant}

/-- The years of four digits in Unix seconds. -/
theorem fourDigitYear_iff :
    FourDigitYear t ↔ -62167219200 ≤ t.seconds ∧ t.seconds < 253402300800 := by
  have hlast : t.date.year ≤ 9999 ↔ t.date.year < 10000 := by omega
  show 0 ≤ t.date.year ∧ t.date.year ≤ 9999 ↔ _
  rw [hlast, Instant.le_year_iff, Instant.year_lt_iff]
  exact Iff.rfl

/-! ### Reading what was written -/

/-- A date is read from its own text if its year has four digits. -/
theorem exists_decode_encode_iff : (∃ t', decode (encode t) = .ok t') ↔ FourDigitYear t := by
  rw [decode_encode_eq]
  split
  · rename_i hyear
    exact iff_of_true ⟨_, rfl⟩ hyear
  · rename_i hyear
    exact iff_of_false (by rintro ⟨t', h⟩; contradiction) hyear

theorem eq_of_decode_encode {t' : Instant} (h : decode (encode t) = .ok t') :
    t' = t.asRead := by
  have hyear : FourDigitYear t := exists_decode_encode_iff.1 ⟨t', h⟩
  rw [decode_encode hyear] at h
  exact (Except.ok.inj h).symm

/-- **The domain of the text of a date.** The text of an instant is read exactly if its year in UTC
is one of 0 to 9999, that is, if its Unix seconds are in the range of these years. What is read has
the same second and the nanoseconds cut down to a whole millisecond, in a leap second as well if it
closes its minute, and not if it is in the middle of one; and its text is the same again. -/
theorem decode_encode_domain (t : Instant) :
    ((∃ t', decode (encode t) = .ok t') ↔ 0 ≤ t.date.year ∧ t.date.year ≤ 9999) ∧
      (0 ≤ t.date.year ∧ t.date.year ≤ 9999 ↔
        -62167219200 ≤ t.seconds ∧ t.seconds < 253402300800) ∧
      ∀ t', decode (encode t) = .ok t' →
        (t'.seconds = t.seconds ∧ t'.nanos = t.nanos - t.nanos % 1000000 ↔
          (t.isLeap = true → t.seconds % 60 = 59)) ∧
        encode t' = encode t := by
  refine ⟨exists_decode_encode_iff, fourDigitYear_iff, fun t' h ↦ ?_⟩
  obtain rfl := eq_of_decode_encode h
  refine ⟨Iff.trans ?_ t.asRead_eq_cutToMillis_iff, encode_asRead t⟩
  constructor
  · rintro ⟨hseconds, hnanos⟩
    exact Instant.ext_parts hseconds hnanos
  · intro hcut
    rw [hcut]
    exact ⟨rfl, rfl⟩

end DateText

end PeerRelay.Calendar
