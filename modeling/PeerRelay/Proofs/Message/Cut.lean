import PeerRelay.Message
import PeerRelay.Proofs.Calendar.DateText

/-!
# Messages cut to milliseconds

Dates travel and are stored with millisecond precision, so what comes back is the message with its
date cut to milliseconds; a leap second in the middle of a minute comes back as the second behind
it. Neither changes the text of a date, and so it is not noticed by what writes messages down.
-/

namespace PeerRelay

open Calendar

/-- An instant and its cut have one text. -/
@[simp] theorem Calendar.DateText.encode_cutToMillis (t : Instant) :
    DateText.encode t.cutToMillis = DateText.encode t := by
  have hmillis : t.cutToMillis.fraction / 1000000 = t.fraction / 1000000 := by
    rw [t.fraction_cutToMillis]
    omega
  unfold DateText.encode Instant.render Instant.Precision.render
  rw [Instant.date_cutToMillis, Instant.secondOfDay_cutToMillis, Instant.isLeap_cutToMillis]
  dsimp only
  rw [hmillis]

/-- An instant has the text of the one that is read for it. -/
@[simp] theorem Calendar.DateText.encode_asRead (t : Instant) :
    DateText.encode t.asRead = DateText.encode t := by
  rw [Instant.asRead, encode_cutToMillis, encode_carried]

namespace Message

/-- The message with its date cut to milliseconds. -/
def cutToMillis (m : Message) : Message :=
  { m with date := m.date.cutToMillis }

/-- The message as it is read again where its date has milliseconds. -/
def asRead (m : Message) : Message :=
  { m with date := m.date.asRead }

variable (m : Message)

@[simp] theorem id_asRead : m.asRead.id = m.id := rfl

@[simp] theorem asRead_asRead : m.asRead.asRead = m.asRead := by
  unfold asRead
  rw [Instant.asRead_asRead]

theorem fourDigitYear_asRead :
    DateText.FourDigitYear m.asRead.date ↔ DateText.FourDigitYear m.date :=
  DateText.fourDigitYear_asRead

variable {m} in
/-- A message with a leap second is read cut to milliseconds if the second closes its minute. -/
theorem asRead_eq (h : m.date.LeapClosesMinute) : m.asRead = m.cutToMillis := by
  rw [asRead, h.asRead, cutToMillis]

end Message

end PeerRelay
