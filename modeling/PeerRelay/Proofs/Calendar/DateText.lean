import Mathlib.Data.List.Induction
import PeerRelay.Proofs.Calendar.Fields
import PeerRelay.Proofs.Outcome

/-!
# Dates in the strict form are read back

An encoded instant is read back, cut to milliseconds, if its year in UTC has four digits and its
leap second, if it is in one, closes a minute (`decode_encode_of_inDomain`). The text is taken apart
as the reader does it: a number of fixed width, a mark, and so on to the letter of the zone. A leap
second in the middle of a minute has the text of the second behind it, and is read as that
(`decode_encode`). Any other year is written with a sign, and is not read back at all
(`decode_encode_of_signed`).
-/

namespace PeerRelay.Calendar

/-- The text of an instant, field by field. -/
theorem Instant.toList_render (t : Instant) (precision : Precision) (zone : ZoneMark) :
    (t.render precision zone).toList =
      (renderYear t.date.year).toList ++ '-' :: ((Text.padded 2 t.date.month).toList ++
        '-' :: ((Text.padded 2 t.date.day).toList ++ 'T' ::
        ((Text.padded 2 (t.secondOfDay / 3600)).toList ++ ':' ::
        ((Text.padded 2 (t.secondOfDay / 60 % 60)).toList ++ ':' ::
        ((Text.padded 2 (t.secondOfDay % 60 + if t.isLeap then 1 else 0)).toList ++
        ((precision.render t.fraction).toList ++ zone.render.toList)))))) := by
  unfold render renderDate renderClock
  simp

/-! ### Marks and fractions -/

theorem Reading.mark_cons (c : Char) (rest : List Char) :
    Reading.mark c (c :: rest) = .ok rest :=
  if_pos rfl

theorem Reading.dateTimeMark_cons (rest : List Char) :
    Reading.dateTimeMark ('T' :: rest) = .ok rest :=
  rfl

theorem Reading.optionalFraction_point (rest : List Char) :
    Reading.optionalFraction ('.' :: rest) = Reading.fraction rest :=
  rfl

/-- A fraction is read to the end of its digits. -/
theorem Reading.fraction_append {ds rest : List Char} (hne : ds ≠ [])
    (hds : ∀ c ∈ ds, Text.isDigit c = true) (hrest : rest.takeWhile Text.isDigit = []) :
    Reading.fraction (ds ++ rest) =
      .ok (Text.ofDigits (ds.take 9) * 10 ^ (9 - (ds.take 9).length), rest) := by
  have hdrop : rest.dropWhile Text.isDigit = rest := by
    have hsplit := rest.takeWhile_append_dropWhile (p := Text.isDigit)
    rwa [hrest, List.nil_append] at hsplit
  obtain ⟨d, ds, rfl⟩ := List.exists_cons_of_ne_nil hne
  unfold fraction
  rw [List.takeWhile_append_of_pos hds, hrest, List.append_nil, List.dropWhile_append_of_pos hds,
    hdrop]
  rfl

/-- A padded number that is a fraction counts from its point on. -/
theorem Reading.fraction_padded {width n : Nat} (hwidth : 0 < width) (hnine : width ≤ 9)
    (h : n < 10 ^ width) :
    Reading.fraction ((Text.padded width n).toList ++ ['Z']) =
      .ok (n * 10 ^ (9 - width), ['Z']) := by
  have hlength := Text.length_padded hwidth h
  rw [fraction_append (List.ne_nil_of_length_pos (by omega))
      (fun _ ↦ Text.isDigit_of_mem_padded) (by decide),
    List.take_of_length_le (by omega), hlength, Text.ofDigits_padded]

namespace DateText

/-! ### Numbers of fixed width -/

theorem digits_append {ds : List Char} (hds : ∀ c ∈ ds, Text.isDigit c = true)
    (rest : List Char) : digits ds.length (ds ++ rest) = .ok (Text.ofDigits ds, rest) := by
  induction ds using List.reverseRecOn generalizing rest with
  | nil => rfl
  | append_singleton ds c ih =>
    have hc : Text.isDigit c = true := hds c (by simp)
    have hinit : digits ds.length (ds ++ (c :: rest)) = .ok (Text.ofDigits ds, c :: rest) :=
      ih (fun d hd ↦ hds d (List.mem_append_left _ hd)) _
    rw [List.length_append, List.append_assoc]
    show digits (ds.length + 1) (ds ++ (c :: rest)) = _
    rw [digits, hinit, Text.ofDigits_append]
    show (if Text.isDigit c = true then _ else _) = _
    rw [if_pos hc, List.length_singleton, Nat.pow_one]
    simp [Text.ofDigits]

/-- A number does not begin with anything but a digit. -/
theorem digits_cons_of_sign (n : Nat) {c : Char} {rest : List Char} (hc : Text.isDigit c = false) :
    digits (n + 1) (c :: rest) = .error .invalid := by
  induction n with
  | zero =>
    show (if Text.isDigit c = true then _ else _) = _
    rw [if_neg (by simp [hc])]
  | succ n ih =>
    rw [digits, ih]
    rfl

/-- A padded number is read back. -/
theorem digits_padded {width n : Nat} {rest : List Char} (hwidth : 0 < width)
    (h : n < 10 ^ width) :
    digits width ((Text.padded width n).toList ++ rest) = .ok (n, rest) := by
  have hdigits : ∀ c ∈ (Text.padded width n).toList, Text.isDigit c = true :=
    fun _ ↦ Text.isDigit_of_mem_padded
  have hread := digits_append hdigits rest
  rwa [Text.length_padded hwidth h, Text.ofDigits_padded] at hread

/-! ### Encoded instants -/

section Encode

variable (t : Instant)

/-- The instant has a year in UTC that can be written with four digits. -/
def FourDigitYear : Prop :=
  0 ≤ t.date.year ∧ t.date.year ≤ 9999

instance : Decidable (FourDigitYear t) :=
  inferInstanceAs (Decidable (_ ∧ _))

/-- The instant has a text of its own that is read: its year has four digits, and if it lies in a
leap second then in one that closes its minute. -/
structure InDomain : Prop where
  year : FourDigitYear t
  closes : t.LeapClosesMinute

instance : Decidable (InDomain t) :=
  decidable_of_iff (FourDigitYear t ∧ t.LeapClosesMinute)
    ⟨fun h ↦ ⟨h.1, h.2⟩, fun h ↦ ⟨h.year, h.closes⟩⟩

variable {t}

theorem fourDigitYear_carried : FourDigitYear t.carried ↔ FourDigitYear t := by
  rw [FourDigitYear, FourDigitYear, t.date_carried]

theorem fourDigitYear_asRead : FourDigitYear t.asRead ↔ FourDigitYear t :=
  fourDigitYear_carried

theorem renderYear_of_fourDigits (hyear : FourDigitYear t) :
    Instant.renderYear t.date.year = Text.padded 4 t.date.year.toNat := by
  rw [Instant.renderYear, if_neg (by have := hyear.1; omega), if_pos hyear.2]

/-- A year of another length begins with a sign. -/
theorem renderYear_of_signed (hyear : ¬ FourDigitYear t) :
    ∃ c rest, (Instant.renderYear t.date.year).toList = c :: rest ∧ Text.isDigit c = false := by
  unfold Instant.renderYear
  by_cases hbefore : t.date.year < 0
  · rw [if_pos hbefore, String.toList_append]
    exact ⟨'-', _, rfl, rfl⟩
  · have hafter : ¬ t.date.year ≤ 9999 := fun hle ↦ hyear ⟨by omega, hle⟩
    rw [if_neg hbefore, if_neg hafter, String.toList_append]
    exact ⟨'+', _, rfl, rfl⟩

theorem le_length_renderYear (year : Int) : 4 ≤ (Instant.renderYear year).toList.length := by
  have hpadded : ∀ n, 4 ≤ (Text.padded 4 n).toList.length := Text.le_length_padded 4
  have hbefore := hpadded year.natAbs
  have hwithin := hpadded year.toNat
  unfold Instant.renderYear
  split
  · rw [String.toList_append, List.length_append]
    omega
  · split
    · exact hwithin
    · rw [String.toList_append, List.length_append]
      omega

variable (t) in
/-- The fraction has three digits, and the zone is a letter. -/
theorem toList_encode : (encode t).toList =
    (Instant.renderYear t.date.year).toList ++ '-' :: ((Text.padded 2 t.date.month).toList ++
      '-' :: ((Text.padded 2 t.date.day).toList ++ 'T' ::
      ((Text.padded 2 (t.secondOfDay / 3600)).toList ++ ':' ::
      ((Text.padded 2 (t.secondOfDay / 60 % 60)).toList ++ ':' ::
      ((Text.padded 2 (t.secondOfDay % 60 + if t.isLeap then 1 else 0)).toList ++ '.' ::
      ((Text.padded 3 (t.fraction / 1000000)).toList ++ ['Z'])))))) := by
  rw [encode, Instant.toList_render]
  simp [Instant.Precision.render, Instant.ZoneMark.render]

variable (t) in
/-- An encoded instant is not too short to be read. -/
theorem fixedWidth_le_encode : fixedWidth ≤ (encode t).utf8ByteSize := by
  have hbytes := Text.length_le_utf8ByteSize (encode t).toList
  rw [String.ofList_toList, toList_encode t] at hbytes
  simp only [List.length_append, List.length_cons, List.length_nil] at hbytes
  have hyears := le_length_renderYear t.date.year
  have hmonths := Text.le_length_padded 2 t.date.month
  have hdays := Text.le_length_padded 2 t.date.day
  have hhours := Text.le_length_padded 2 (t.secondOfDay / 3600)
  have hminutes := Text.le_length_padded 2 (t.secondOfDay / 60 % 60)
  have hseconds := Text.le_length_padded 2 (t.secondOfDay % 60 + if t.isLeap then 1 else 0)
  rw [fixedWidth]
  omega

/-- **An encoded instant is read back, cut to milliseconds.** -/
theorem decode_encode_of_inDomain (h : InDomain t) :
    decode (encode t) = .ok t.cutToMillis := by
  obtain ⟨hyear, hcloses⟩ := h
  obtain ⟨hmonth, hmonth', hday⟩ := t.date_exists.bounds
  have hsecond := t.secondOfDay_lt
  have hfraction : t.fraction / 1000000 < 10 ^ 3 := by
    have := t.fraction_lt
    unfold Instant.fraction nanosPerSecond at *
    omega
  have hleap : t.secondOfDay % 60 + (if t.isLeap then 1 else 0) ≤ 60 := by
    split <;> omega
  have hyear4 : t.date.year.toNat < 10 ^ 4 := by
    have := hyear.2
    omega
  have htwo : ∀ {n : Nat} {rest : List Char}, n < 100 →
      digits 2 ((Text.padded 2 n).toList ++ rest) = .ok (n, rest) :=
    fun h ↦ digits_padded (by decide) h
  have hdate : (⟨t.date.year.toNat, t.date.month, t.date.day⟩ : Civil) = t.date := by
    rw [Int.toNat_of_nonneg hyear.1]
  have hclock : t.secondOfDay / 3600 ≤ 23 ∧ t.secondOfDay / 60 % 60 ≤ 59 ∧
      (t.secondOfDay % 60 + if t.isLeap then 1 else 0) ≤ 60 :=
    ⟨by omega, by omega, hleap⟩
  -- the local time that is read is that of the instant without what is finer than a millisecond
  have hlocal := LocalTime.toInstant_utc (t := t.cutToMillis)
    ⟨le_trans (by decide) hyear.1, le_trans hyear.2 (by decide)⟩
    (t.leapClosesMinute_cutToMillis.2 hcloses)
  rw [Instant.isLeap_cutToMillis, Instant.fraction_cutToMillis] at hlocal
  rw [decode, if_neg (Nat.not_lt.2 (fixedWidth_le_encode t)), toList_encode t,
    renderYear_of_fourDigits hyear, digits_padded (by decide) hyear4]
  simp only [ok_bind, htwo (show t.date.month < 100 by omega), Reading.mark_cons,
    htwo (show t.date.day < 100 by omega), hdate, if_pos t.date_exists, Reading.dateTimeMark_cons,
    htwo (show t.secondOfDay / 3600 < 100 by omega),
    htwo (show t.secondOfDay / 60 % 60 < 100 by omega),
    htwo (show (t.secondOfDay % 60 + if t.isLeap then 1 else 0) < 100 by omega),
    Reading.optionalFraction_point, Reading.fraction_padded (by decide) (by decide) hfraction,
    if_pos hclock]
  exact hlocal

variable (t) in
/-- An instant and the one that is shown for it have one text. -/
@[simp] theorem encode_carried : encode t.carried = encode t :=
  t.render_carried .millis .letter

/-- What is read of any instant that is encoded with a year of four digits. -/
theorem decode_encode (hyear : FourDigitYear t) : decode (encode t) = .ok t.asRead := by
  rw [← encode_carried]
  exact decode_encode_of_inDomain
    ⟨fourDigitYear_carried.2 hyear, t.leapClosesMinute_carried⟩

/-- An encoded instant whose year has a sign is not read back. -/
theorem decode_encode_of_signed (hyear : ¬ FourDigitYear t) :
    decode (encode t) = .error .invalid := by
  obtain ⟨c, rest, hsigned, hc⟩ := renderYear_of_signed hyear
  rw [decode, if_neg (Nat.not_lt.2 (fixedWidth_le_encode t)), toList_encode t, hsigned,
    List.cons_append, digits_cons_of_sign 3 hc]
  rfl

end Encode

end DateText

end PeerRelay.Calendar
