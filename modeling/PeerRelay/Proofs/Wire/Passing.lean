import PeerRelay.Proofs.Calendar.Accepted
import PeerRelay.Proofs.Store.Restoring
import PeerRelay.Proofs.Wire.Body

/-!
# Passing on what was received

A message that is relayed goes under the date that it was received with, and is stored under it on
its way. For both the date is written in UTC, while the text that it was read from had an offset of
its own. So the year that is written may have a sign where the year that was read had none, and such
a date is read no more: the next peer refuses the message, and the store leaves it out when it is
loaded. This happens to the dates within a day of the ends of the range that is read, and to no
other ones (`passed_on_iff`).
-/

namespace PeerRelay.Wire.Body

open Calendar

variable {b : Body} {r : Received} {raw : String} {t : Instant}

/-- What is received has the date that its text denotes. -/
theorem decode_date_of_receive (h : b.receive = .ok r) :
    DateText.decode b.date = .ok r.message.date := by
  rw [receive] at h
  split at h
  · contradiction
  · rename_i date hdate
    split at h
    · contradiction
    · obtain rfl := Except.ok.inj h
      exact hdate

/-- A message whose year has a sign is refused because of its date. -/
theorem receive_ofMessage_of_signed {m : Message} (hyear : ¬ DateText.FourDigitYear m.date)
    (sender : String) : (ofMessage m sender).receive =
      .error (.invalidMessage (.badDate (DateText.encode m.date) m.id .invalid)) := by
  unfold receive ofMessage
  dsimp only
  rw [DateText.decode_encode_of_signed hyear]

/-- A message is accepted exactly if its year has no sign. -/
theorem receive_ofMessage_eq_ok {m : Message} {sender : String} :
    (ofMessage m sender).receive = .ok r ↔
      DateText.FourDigitYear m.date ∧ m.asRead.receivedFrom sender = r := by
  by_cases hyear : DateText.FourDigitYear m.date
  · rw [receive_ofMessage hyear, Except.ok.injEq]
    exact (and_iff_right hyear).symm
  · rw [receive_ofMessage_of_signed hyear]
    exact iff_of_false nofun fun h ↦ hyear h.1

theorem exists_receive_iff {m : Message} {sender : String} :
    (∃ r, (ofMessage m sender).receive = .ok r) ↔ DateText.FourDigitYear m.date :=
  ⟨fun ⟨_, hr⟩ ↦ (receive_ofMessage_eq_ok.1 hr).1, fun hyear ↦ ⟨_, receive_ofMessage hyear sender⟩⟩

/-- What the next peer makes of a message that is relayed. -/
theorem receive_relay (hcloses : r.message.date.LeapClosesMinute) (m : Message) (sender : String) :
    (ofMessage (r.relay m) sender).receive =
      if DateText.FourDigitYear r.message.date then
        .ok ((r.relay m).cutToMillis.receivedFrom sender)
      else
        .error (.invalidMessage
          (.badDate (DateText.encode r.message.date) r.message.id .invalid)) := by
  split
  · rename_i hyear
    rw [← Message.asRead_eq (m := r.relay m) hcloses]
    exact receive_ofMessage (m := r.relay m) hyear sender
  · rename_i hyear
    exact receive_ofMessage_of_signed (m := r.relay m) hyear sender

/-- What a store returns of a message that is relayed, if it could be loaded before. -/
theorem load_write_relay (hcloses : r.message.date.LeapClosesMinute) (m : Message)
    {db db₀ : Store.Database} {records₀ : List Store.Record} {targets : List Instance}
    (hload : Store.load db = (.ok records₀, db₀)) (htargets : targets ≠ []) :
    ∃ record db' records db'', Store.write db (r.relay m) targets = (.ok record, db') ∧
      Store.load db' = (.ok records, db'') ∧
      ((∃ s ∈ records, s.message.id = r.message.id) ↔ DateText.FourDigitYear r.message.date) ∧
      (DateText.FourDigitYear r.message.date → ∀ i ∈ targets, ∃ s ∈ records,
        s.message = (r.relay m).cutToMillis ∧ ∃ j ∈ s.targets, j.uri = i.uri) := by
  obtain ⟨messages, rows, -, hm, ht, -⟩ := Store.load_eq_ok hload
  have hwrite := Store.write_of_tables (m := r.relay m) hm ht htargets
  obtain ⟨records, db'', hload'⟩ := Store.exists_load_write hwrite hload
  refine ⟨_, _, records, db'', hwrite, hload', ?_, fun hyear i hi ↦ ?_⟩
  · exact Store.mem_load_write_iff (m := r.relay m) hwrite htargets hload'
  · rw [← Message.asRead_eq (m := r.relay m) hcloses]
    exact Store.mem_load_of_holds hload' hyear (Store.holds_of_write hwrite hi)

/-- **Dates that are read can be passed on, except next to the ends.** The year in UTC of a date
that is read is one of four digits, or the year before or after them. Only if it has four digits is
the date read again once it is encoded, and then it is the same one cut to milliseconds. So it goes
with a message that is received with the date. The next peer receives it when it is relayed, and
refuses it otherwise; a store that it is written to returns it with its peers, and leaves it out
otherwise. -/
theorem passed_on_iff (h : DateText.decode raw = .ok t) :
    (-1 ≤ t.date.year ∧ t.date.year ≤ 10000) ∧
      DateText.decode (DateText.encode t) =
        (if DateText.FourDigitYear t then .ok t.cutToMillis else .error .invalid) ∧
      ∀ (b : Body) (r : Received) (m : Message), b.date = raw → b.receive = .ok r →
        (∀ sender, (ofMessage (r.relay m) sender).receive =
          if DateText.FourDigitYear t then
            .ok ((r.relay m).cutToMillis.receivedFrom sender)
          else
            .error (.invalidMessage (.badDate (DateText.encode t) r.message.id .invalid))) ∧
        ∀ (db db₀ : Store.Database) (records₀ : List Store.Record) (targets : List Instance),
          Store.load db = (.ok records₀, db₀) → targets ≠ [] →
          ∃ record db' records db'', Store.write db (r.relay m) targets = (.ok record, db') ∧
            Store.load db' = (.ok records, db'') ∧
            ((∃ s ∈ records, s.message.id = r.message.id) ↔ DateText.FourDigitYear t) ∧
            (DateText.FourDigitYear t → ∀ i ∈ targets, ∃ s ∈ records,
              s.message = (r.relay m).cutToMillis ∧ ∃ j ∈ s.targets, j.uri = i.uri) := by
  have hcloses := DateText.leapClosesMinute_of_decode h
  refine ⟨DateText.year_of_decode h, hcloses.asRead ▸ DateText.decode_encode_eq t, ?_⟩
  rintro b r m rfl hreceive
  obtain rfl : r.message.date = t :=
    Except.ok.inj ((decode_date_of_receive hreceive).symm.trans h)
  exact ⟨receive_relay hcloses m,
    fun _ _ _ _ hload htargets ↦ load_write_relay hcloses m hload htargets⟩

/-- A body with nothing in it but a date. -/
def dated (date : String) : Body :=
  ⟨"m1", date, "document_update", none, "http://a", [], ∅, ""⟩

/-- What is received by such a body. -/
def receivedAt (date : Instant) : Received :=
  (Message.blank ⟨"m1", date⟩ "document_update").receivedFrom "http://a"

/-- The first moments of the year 0, with a fraction that is finer than a millisecond. -/
def yearZero : Instant :=
  ⟨-62167219200, 123456789, by decide, by decide, by decide⟩

theorem passed_on_iff_of_yearZero :
    DateText.decode "0000-01-01T01:00:00.123456789+01:00" = .ok yearZero ∧
      DateText.decode (DateText.encode yearZero) = .ok yearZero.cutToMillis ∧
      (dated "0000-01-01T01:00:00.123456789+01:00").receive = .ok (receivedAt yearZero) ∧
      ∀ (m : Message) (sender : String),
        (ofMessage ((receivedAt yearZero).relay m) sender).receive =
          .ok (((receivedAt yearZero).relay m).cutToMillis.receivedFrom sender) := by
  have hread : DateText.decode "0000-01-01T01:00:00.123456789+01:00" = .ok yearZero := by
    decide +kernel
  have hreceive : (dated "0000-01-01T01:00:00.123456789+01:00").receive =
      .ok (receivedAt yearZero) := by decide +kernel
  have hyear : DateText.FourDigitYear yearZero := by decide
  obtain ⟨-, hagain, hpassed⟩ := passed_on_iff hread
  refine ⟨hread, hagain.trans (if_pos hyear), hreceive, fun m sender ↦ ?_⟩
  exact ((hpassed _ _ m rfl hreceive).1 sender).trans (if_pos hyear)

/-- An hour before the year 0. -/
def yearBefore : Instant where
  seconds := -62167222800
  nanos := 0
  first_le := by decide
  le_last := by decide
  nanos_lt := Instant.epoch.nanos_lt

/-- A peer that is an hour ahead of UTC dates a message to the first moment of the year 0. The
message is received. It is refused by the next peer, and the store in which it waits for that peer
never returns it. -/
theorem yearBefore_not_passed_on :
    DateText.decode "0000-01-01T00:00:00+01:00" = .ok yearBefore ∧
      DateText.encode yearBefore = "-0001-12-31T23:00:00.000Z" ∧
      DateText.decode (DateText.encode yearBefore) = .error .invalid ∧
      (dated "0000-01-01T00:00:00+01:00").receive = .ok (receivedAt yearBefore) ∧
      (ofMessage ((receivedAt yearBefore).relay default) "http://b").receive =
        .error (.invalidMessage (.badDate "-0001-12-31T23:00:00.000Z" "m1" .invalid)) ∧
      let stored := (Store.write .fresh ((receivedAt yearBefore).relay default)
        [⟨"c", "http://c"⟩]).2
      Store.count stored = .ok 1 ∧ (Store.load stored).1 = .ok [] := by
  decide +kernel

end PeerRelay.Wire.Body
