import Mathlib.Data.List.TakeWhile
import PeerRelay.Calendar.Lenient
import PeerRelay.Proofs.Calendar.Accepted

/-!
# Dates in the lenient form are read back

Inside a document an instant is written with as many digits of its fraction as it needs, and with a
year of any length. It is read back as it was if a leap second of it closes its minute
(`decode_encode`), and as the second behind it otherwise (`decode_encode_carried`): the years of all
instants can be given (`yearInRange_date`), a year of another length than four has a sign and
ends before its mark, and the fewest digits of a fraction that lose nothing are three, six or nine
(`optionalFraction_fewest`). The reader allows for blanks in many places; none are written.

So an instant can be told from its text, in whichever way the zone is spelled, but for a leap second
in the middle of a minute (`Instant.render_eq_iff`).
-/

namespace PeerRelay.Calendar

/-- The year of every instant can be given. -/
theorem Instant.yearInRange_date (t : Instant) : LocalTime.YearInRange t.date.year := by
  obtain ⟨hmonth, hmonth', hday'⟩ := t.date_exists.bounds
  have hday := t.date_exists.1
  have hseconds := t.seconds_eq
  have hclock := t.secondOfDay_lt
  have hfirst := t.first_le
  have hlast := t.le_last
  generalize t.date = c at *
  obtain ⟨year, month, day⟩ := c
  simp only [Civil.dayNumber, Civil.epochOffset, secondsPerDay, firstSecond, lastSecond] at *
  -- both ends lie within a period of four hundred years, so the period is told apart first
  constructor
  · by_contra hbefore
    split at hseconds
    · rcases lt_or_ge ((year - 1) / 400) (-656) with h | h <;> omega
    · rcases lt_or_ge (year / 400) (-656) with h | h <;> omega
  · by_contra hafter
    split at hseconds
    · rcases lt_or_ge 655 ((year - 1) / 400) with h | h <;> omega
    · rcases lt_or_ge 655 (year / 400) with h | h <;> omega

namespace Lenient

/-! ### Nothing blank is written -/

theorem isBlank_of_isDigit {c : Char} (h : Text.isDigit c = true) : Text.isBlank c = false := by
  simp only [Text.isDigit, Bool.and_eq_true, decide_eq_true_eq] at h
  have hlow : 48 ≤ c.toNat := h.1
  have hhigh : c.toNat ≤ 57 := h.2
  simp only [Text.isBlank]
  simp
  omega

theorem dropBlank_cons {c : Char} (h : Text.isBlank c = false) (rest : List Char) :
    Text.dropBlank (c :: rest) = c :: rest :=
  List.dropWhile_cons_of_neg (by simp [h])

theorem dropBlank_append {ds : List Char} (hne : ds ≠ [])
    (hds : ∀ c ∈ ds, Text.isDigit c = true) (rest : List Char) :
    Text.dropBlank (ds ++ rest) = ds ++ rest := by
  obtain ⟨d, ds, rfl⟩ := List.exists_cons_of_ne_nil hne
  exact dropBlank_cons (isBlank_of_isDigit (hds d List.mem_cons_self)) (ds ++ rest)

/-- A separator is read. -/
theorem separator_cons {c : Char} (h : Text.isBlank c = false) (rest : List Char) :
    separator c (c :: rest) = .ok rest := by
  rw [separator, dropBlank_cons h, Reading.mark_cons]

/-! ### Numbers -/

/-- A number is read if its digits are those that are looked at. -/
theorem number_eq (width : Option Nat) {ds cs : List Char} (hne : ds ≠ [])
    (hdigits : (cs.take (width.getD cs.length)).takeWhile Text.isDigit = ds)
    (hvalue : Text.ofDigits ds < fieldLimit) :
    number width cs = .ok (Text.ofDigits ds, cs.drop ds.length) := by
  have hcs : cs ≠ [] := by
    rintro rfl
    rw [List.take_nil] at hdigits
    exact hne hdigits.symm
  obtain ⟨c, cs, rfl⟩ := List.exists_cons_of_ne_nil hcs
  obtain ⟨d, ds, rfl⟩ := List.exists_cons_of_ne_nil hne
  simp only [number, hdigits]
  exact if_pos hvalue

variable {n : Nat} {rest : List Char}

/-- A padded number that fills its width is read, whatever follows it. -/
theorem number_padded {width : Nat} (hwidth : 0 < width) (h : n < 10 ^ width)
    (hlimit : n < fieldLimit) :
    number (some width) ((Text.padded width n).toList ++ rest) = .ok (n, rest) := by
  have hlength := Text.length_padded hwidth h
  have hdigits : (((Text.padded width n).toList ++ rest).take width).takeWhile Text.isDigit =
      (Text.padded width n).toList := by
    rw [List.take_left' hlength]
    exact List.takeWhile_eq_self_iff.2 fun c ↦ Text.isDigit_of_mem_padded
  have hread := number_eq (some width) (List.ne_nil_of_length_pos (by omega)) hdigits
    (by rwa [Text.ofDigits_padded])
  rwa [Text.ofDigits_padded, List.drop_left] at hread

/-- A padded number of any length is read to its end. -/
theorem number_padded_of_end {width : Nat} (hwidth : 0 < width) (hlimit : n < fieldLimit)
    (hrest : rest.takeWhile Text.isDigit = []) :
    number none ((Text.padded width n).toList ++ rest) = .ok (n, rest) := by
  have hlength := Text.le_length_padded width n
  have hdigits : (((Text.padded width n).toList ++ rest).take
      (none.getD ((Text.padded width n).toList ++ rest).length)).takeWhile Text.isDigit =
        (Text.padded width n).toList := by
    rw [Option.getD_none, List.take_length,
      List.takeWhile_append_of_pos fun c ↦ Text.isDigit_of_mem_padded, hrest,
      List.append_nil]
  have hread := number_eq none (List.ne_nil_of_length_pos (by omega)) hdigits
    (by rwa [Text.ofDigits_padded])
  rwa [Text.ofDigits_padded, List.drop_left] at hread

/-- A field of two digits is read if it is within its bounds. -/
theorem field_padded {low high : Nat} (h : low ≤ n ∧ n ≤ high) (hhigh : high < 100) :
    field low high ((Text.padded 2 n).toList ++ rest) = .ok (n, rest) := by
  have hlength := Text.le_length_padded 2 n
  have hblank : Text.dropBlank ((Text.padded 2 n).toList ++ rest) =
      (Text.padded 2 n).toList ++ rest :=
    dropBlank_append (List.ne_nil_of_length_pos (by omega)) (fun c ↦ Text.isDigit_of_mem_padded) _
  have hread : number (some 2) ((Text.padded 2 n).toList ++ rest) = .ok (n, rest) :=
    number_padded (by decide) (by omega) (lt_trans (show n < 100 by omega) (by decide))
  rw [field, hblank, hread]
  exact if_pos h

/-! ### Years -/

section Year

variable {cs : List Char}

/-- A year before 0 has a minus sign. -/
theorem year_minus (h : number none cs = .ok (n, rest)) (hn : n ≤ 262143) :
    year ('-' :: cs) = .ok (-(n : Int), rest) := by
  rw [year, dropBlank_cons (show Text.isBlank '-' = false by decide)]
  simp only [h]
  exact if_pos (by omega : -2147483648 ≤ -(n : Int) ∧ -(n : Int) ≤ 2147483647)

/-- A year after 9999 has a plus sign. -/
theorem year_plus (h : number none cs = .ok (n, rest)) (hn : n ≤ 262143) :
    year ('+' :: cs) = .ok ((n : Int), rest) := by
  rw [year, dropBlank_cons (show Text.isBlank '+' = false by decide)]
  simp only [h]
  exact if_pos (by omega : -2147483648 ≤ (n : Int) ∧ (n : Int) ≤ 2147483647)

/-- Any other year has four digits. -/
theorem year_digit {d : Char} (hd : Text.isDigit d = true)
    (h : number (some 4) (d :: cs) = .ok (n, rest)) (hn : n ≤ 262143) :
    year (d :: cs) = .ok ((n : Int), rest) := by
  rw [year, dropBlank_cons (isBlank_of_isDigit hd)]
  split
  case h_1 heq =>
    cases heq
    exact absurd hd (by decide)
  case h_2 heq =>
    cases heq
    exact absurd hd (by decide)
  case h_3 =>
    rw [h]
    exact if_pos (by omega : -2147483648 ≤ (n : Int) ∧ (n : Int) ≤ 2147483647)

end Year

/-- A year is read to the mark that follows it. -/
theorem year_renderYear {y : Int} (h : LocalTime.YearInRange y)
    (hrest : rest.takeWhile Text.isDigit = []) :
    year ((Instant.renderYear y).toList ++ rest) = .ok (y, rest) := by
  obtain ⟨hlow, hhigh⟩ := h
  have hlimit : ∀ {n : Nat}, n ≤ 262143 → n < fieldLimit :=
    fun hle ↦ Nat.lt_of_le_of_lt hle (by decide)
  unfold Instant.renderYear
  split
  case isTrue hbefore =>
    have hread : number none ((Text.padded 4 y.natAbs).toList ++ rest) = .ok (y.natAbs, rest) :=
      number_padded_of_end (by decide) (hlimit (by omega)) hrest
    have hyear := year_minus hread (by omega)
    rw [show -(y.natAbs : Int) = y by omega] at hyear
    have htext : ("-" ++ Text.padded 4 y.natAbs).toList =
        '-' :: (Text.padded 4 y.natAbs).toList := by simp
    rw [htext]
    exact hyear
  case isFalse hbefore =>
    have hy : (y.toNat : Int) = y := Int.toNat_of_nonneg (by omega)
    split
    case isTrue hfour =>
      have hread : number (some 4) ((Text.padded 4 y.toNat).toList ++ rest) = .ok (y.toNat, rest) :=
        number_padded (by decide) (by omega) (hlimit (by omega))
      have hdigits : ∀ c ∈ (Text.padded 4 y.toNat).toList, Text.isDigit c = true :=
        fun _ ↦ Text.isDigit_of_mem_padded
      have hne : (Text.padded 4 y.toNat).toList ≠ [] :=
        List.ne_nil_of_length_pos (by have := Text.le_length_padded 4 y.toNat; omega)
      generalize (Text.padded 4 y.toNat).toList = ds at *
      obtain ⟨d, ds, rfl⟩ := List.exists_cons_of_ne_nil hne
      have hyear := year_digit (hdigits d List.mem_cons_self) hread (by omega)
      rwa [hy] at hyear
    case isFalse hafter =>
      have hread : number none ((Text.padded 4 y.toNat).toList ++ rest) = .ok (y.toNat, rest) :=
        number_padded_of_end (by decide) (hlimit (by omega)) hrest
      have hyear := year_plus hread (by omega)
      rw [hy] at hyear
      have htext : ("+" ++ Text.padded 4 y.toNat).toList =
          '+' :: (Text.padded 4 y.toNat).toList := by simp
      rw [htext]
      exact hyear

/-! ### Fractions -/

/-- A fraction is read to the zone. -/
theorem optionalFraction_padded {width m : Nat} (hwidth : 0 < width) (hnine : width ≤ 9)
    (h : m < 10 ^ width) :
    Reading.optionalFraction (("." ++ Text.padded width m).toList ++ ['Z']) =
      .ok (m * 10 ^ (9 - width), ['Z']) := by
  rw [show ("." ++ Text.padded width m).toList = '.' :: (Text.padded width m).toList by simp,
    List.cons_append, Reading.optionalFraction_point, Reading.fraction_padded hwidth hnine h]

/-- No digit of a fraction is lost that is not zero. -/
theorem optionalFraction_fewest {nanos : Nat} (h : nanos < nanosPerSecond) :
    Reading.optionalFraction ((Instant.Precision.fewest.render nanos).toList ++ ['Z']) =
      .ok (nanos, ['Z']) := by
  unfold nanosPerSecond at h
  rw [Instant.Precision.render]
  split
  case isTrue hnone =>
    rw [hnone]
    rfl
  case isFalse =>
    split
    case isTrue hmillis =>
      rw [optionalFraction_padded (by decide) (by decide) (by omega)]
      rw [show nanos / 1000000 * 10 ^ (9 - 3) = nanos by omega]
    case isFalse =>
      split
      case isTrue hmicros =>
        rw [optionalFraction_padded (by decide) (by decide) (by omega)]
        rw [show nanos / 1000 * 10 ^ (9 - 6) = nanos by omega]
      case isFalse =>
        rw [optionalFraction_padded (by decide) (by decide) (by omega)]
        rw [show nanos * 10 ^ (9 - 9) = nanos by omega]

/-! ### Instants -/

variable {t : Instant}

/-- **An instant written in the lenient form is read back.** -/
theorem decode_encode (hcloses : t.LeapClosesMinute) : decode (encode t) = .ok t := by
  obtain ⟨hmonth, hmonth', hday'⟩ := t.date_exists.bounds
  have hday := t.date_exists.1
  have hsecond := t.secondOfDay_lt
  have hleap : t.secondOfDay % 60 + (if t.isLeap then 1 else 0) ≤ 60 := by
    split <;> omega
  have hlocal := LocalTime.toInstant_utc t.yearInRange_date hcloses
  have hzone : Instant.ZoneMark.letter.render.toList = ['Z'] := by decide
  rw [decode, encode, Instant.toList_render, hzone, year_renderYear t.yearInRange_date rfl]
  simp only [ok_bind, separator_cons (show Text.isBlank '-' = false by decide),
    separator_cons (show Text.isBlank ':' = false by decide),
    field_padded ⟨hmonth, hmonth'⟩ (by decide), field_padded ⟨hday, hday'⟩ (by decide),
    field_padded (⟨by omega, by omega⟩ : 0 ≤ t.secondOfDay / 3600 ∧ t.secondOfDay / 3600 ≤ 23)
      (by decide),
    field_padded (⟨by omega, by omega⟩ : 0 ≤ t.secondOfDay / 60 % 60 ∧
      t.secondOfDay / 60 % 60 ≤ 59) (by decide),
    field_padded (⟨Nat.zero_le _, hleap⟩ : 0 ≤ _ ∧ _) (by decide), Reading.dateTimeMark_cons,
    optionalFraction_fewest t.fraction_lt]
  exact hlocal

variable (t) in
/-- What is read of any instant that is written in the lenient form. -/
theorem decode_encode_carried : decode (encode t) = .ok t.carried := by
  have htext : encode t.carried = encode t := t.render_carried .fewest .letter
  rw [← htext, decode_encode t.leapClosesMinute_carried]

/-- A leap second that is read closes its minute. -/
theorem leapClosesMinute_of_decode {s : String} (h : decode s = .ok t) : t.LeapClosesMinute := by
  rw [decode] at h
  obtain ⟨⟨year, rest⟩, -, h⟩ := bind_eq_ok.1 h
  obtain ⟨rest, -, h⟩ := bind_eq_ok.1 h
  obtain ⟨⟨month, rest⟩, -, h⟩ := bind_eq_ok.1 h
  obtain ⟨rest, -, h⟩ := bind_eq_ok.1 h
  obtain ⟨⟨day, rest⟩, -, h⟩ := bind_eq_ok.1 h
  obtain ⟨rest, -, h⟩ := bind_eq_ok.1 h
  obtain ⟨⟨hour, rest⟩, -, h⟩ := bind_eq_ok.1 h
  obtain ⟨rest, -, h⟩ := bind_eq_ok.1 h
  obtain ⟨⟨minute, rest⟩, -, h⟩ := bind_eq_ok.1 h
  obtain ⟨rest, -, h⟩ := bind_eq_ok.1 h
  obtain ⟨⟨second, rest⟩, -, h⟩ := bind_eq_ok.1 h
  obtain ⟨⟨nanos, rest⟩, -, h⟩ := bind_eq_ok.1 h
  obtain ⟨⟨offset, rest⟩, -, h⟩ := bind_eq_ok.1 h
  dsimp only at h
  split at h
  · exact (LocalTime.of_toInstant h).2.2.2.2
  · contradiction

end Lenient

/-- Instants have one text, with no digit of it left out, if they are shown as one instant. -/
theorem Instant.render_eq_iff {t t' : Instant} {zone : ZoneMark} :
    t.render .fewest zone = t'.render .fewest zone ↔ t.carried = t'.carried := by
  refine ⟨fun h ↦ ?_, fun h ↦ ?_⟩
  · -- the zone is the same for all instants, and with the letter for it the text is read back
    have hletter : Lenient.encode t = Lenient.encode t' := by
      rw [render, render, String.append_left_inj] at h
      rw [Lenient.encode, Lenient.encode, render, render, h]
    have hdecode := Lenient.decode_encode_carried t
    rw [hletter, Lenient.decode_encode_carried] at hdecode
    exact (Except.ok.inj hdecode).symm
  · rw [← t.render_carried, h, t'.render_carried]

end PeerRelay.Calendar
