import PeerRelay.Proofs.Message.Cut
import PeerRelay.Proofs.Message.Json
import PeerRelay.Proofs.Store.Loading

/-!
# What was written is loaded

The row of a message is decoded to the message, with its date as it is read of a text with
milliseconds (`message?_written`). So a message that waits for a peer is among the records of a
store that can be loaded (`mem_load_of_holds`). The row of a message whose year has a sign is not
decoded at all (`message?_written_of_signed`), and loading leaves the message out
(`mem_load_write_iff`). No write is in the way of loading (`exists_load_write`).
-/

namespace PeerRelay

namespace Store

open Calendar

/-- The texts of a message that is written. -/
def TypedRow.ofMessage (m : Message) : TypedRow where
  id := m.id
  kind := m.kind
  date := DateText.encode m.date
  source := m.source
  receivers := (Json.Value.ofTexts m.receivers.toList).compact
  metadata := m.metadata.toJson.compact
  payload := m.payload

theorem typed_written (m : Message) : (MessageRow.ofMessage m).typed = .ok (.ofMessage m) :=
  typed_eq_ok.2 rfl

/-- The row of a message is decoded to the message as it is read again. -/
theorem message?_written {m : Message} (hyear : DateText.FourDigitYear m.date) :
    (TypedRow.ofMessage m).message? = some m.asRead := by
  unfold TypedRow.message? TypedRow.ofMessage
  dsimp only
  rw [DateText.decode_encode hyear, Json.decodeText_compact, Json.decodeText_compact,
    decodeTextSetJson_tree, Metadata.decodeJson_tree]
  rfl

/-- The row of a message whose year has a sign is not decoded. -/
theorem message?_written_of_signed {m : Message} (hyear : ¬ DateText.FourDigitYear m.date) :
    (TypedRow.ofMessage m).message? = none := by
  unfold TypedRow.message? TypedRow.ofMessage
  dsimp only
  rw [DateText.decode_encode_of_signed hyear]
  rfl

/-- A message that waits for a peer is loaded with the peer. -/
theorem mem_load_of_holds {db db' : Database} {records : List Record} {m : Message} {uri : String}
    (h : load db = (.ok records, db')) (hyear : DateText.FourDigitYear m.date)
    (hm : db.Holds m uri) :
    ∃ record ∈ records, record.message = m.asRead ∧ ∃ i ∈ record.targets, i.uri = uri :=
  mem_load h hm.1 (typed_written m) (message?_written hyear) hm.2

/-! ### Loading after a write -/

section Write

variable {db db' db'' : Database} {m : Message} {l : List Instance} {record : Record}
  {records : List Record}

/-- A message that was written is loaded if its year has no sign, and is left out otherwise. -/
theorem mem_load_write_iff (hwrite : write db m l = (.ok record, db')) (hl : l ≠ [])
    (hload : load db' = (.ok records, db'')) :
    (∃ r ∈ records, r.message.id = m.id) ↔ DateText.FourDigitYear m.date := by
  constructor
  · rintro ⟨r, hr, hid⟩
    obtain ⟨row, typed, hrow, htyped, hmessage, htypedId⟩ := row_of_mem_load hload hr
    obtain rfl := eq_of_stores_write hwrite hrow (by rw [id_of_typed htyped, ← htypedId, hid])
    obtain rfl : typed = .ofMessage m := Except.ok.inj (htyped.symm.trans (typed_written m))
    by_contra hyear
    rw [message?_written_of_signed hyear] at hmessage
    contradiction
  · intro hyear
    obtain ⟨i, hi⟩ := List.exists_mem_of_ne_nil l hl
    obtain ⟨r, hr, hmessage, -⟩ := mem_load_of_holds hload hyear (holds_of_write hwrite hi)
    exact ⟨r, hr, by rw [hmessage, Message.id_asRead]⟩

/-- The peers of a write can be read. -/
theorem exists_instance?_of_mem_targetRows {id : String} {position : Nat} {row : TargetRow}
    (h : row ∈ targetRows id position l) : ∃ i, row.instance? = .ok i := by
  induction l generalizing position with
  | nil => exact absurd h List.not_mem_nil
  | cons i rest ih =>
    rcases List.mem_cons.1 h with rfl | h
    · exact ⟨i, rfl⟩
    · exact ih h

/-- A store that could be loaded can still be loaded after a write. -/
theorem exists_load_write (hwrite : write db m l = (.ok record, db'))
    (hload : load db = (.ok records, db'')) : ∃ records' db₁, load db' = (.ok records', db₁) := by
  obtain ⟨messages, targets, hm, ht, hrows⟩ := exists_load_iff.1 ⟨records, db'', hload⟩
  obtain ⟨-, messages', targets', hm', ht', rfl⟩ := write_eq_ok hwrite
  obtain rfl : messages = messages' := Option.some.inj (hm.symm.trans hm')
  obtain rfl : targets = targets' := Option.some.inj (ht.symm.trans ht')
  refine exists_load_iff.2 ⟨_, _, rfl, rfl, fun row hrow ↦ ?_⟩
  have hread : ∃ r, row.typed = .ok r ∧
      ∀ peer ∈ targetsOf r.id targets, peer.messageId ≠ m.id → ∃ i, peer.instance? = .ok i := by
    rcases mem_of_mem_upsert hrow with rfl | hold
    · exact ⟨_, typed_written m, fun peer hpeer hne ↦ absurd (mem_targetsOf.1 hpeer).2 hne⟩
    · obtain ⟨r, htyped, hpeers⟩ := hrows row hold
      exact ⟨r, htyped, fun peer hpeer _ ↦ hpeers peer hpeer⟩
  -- a row of a peer is one of the write, or one of another message
  obtain ⟨r, htyped, hpeers⟩ := hread
  refine ⟨r, htyped, fun peer hpeer ↦ ?_⟩
  obtain ⟨hmem, hid⟩ := mem_targetsOf.1 hpeer
  rcases List.mem_append.1 hmem with hold | hnew
  · obtain ⟨hold, hne⟩ := List.mem_filter.1 hold
    exact hpeers peer (mem_targetsOf.2 ⟨hold, hid⟩) (of_decide_eq_true hne)
  · exact exists_instance?_of_mem_targetRows hnew

end Write

end Store

end PeerRelay
