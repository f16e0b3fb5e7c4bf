import PeerRelay.Proofs.Message.Cut
import PeerRelay.Proofs.Message.Json
import PeerRelay.Proofs.Text.Base64
import PeerRelay.Wire.Body

/-!
# A message on the wire

What a peer gets of the text of a body is the body (`decodeJson_tree`), and what it receives by the
body is the message with its date as it is read again (`receive_ofMessage`), which is the date cut
to milliseconds if a leap second closes its minute. So a message that is
sent as a text arrives (`received_as_sent`). Everything but the date arrives as it was, since each
part has a decoder that undoes its encoding: the payload, the set of receivers, the metadata with
all their values.
-/

namespace PeerRelay.Wire.Body

open Calendar Json

/-- A source is read into a body that has none yet; an absent one has no field. -/
theorem fillFields_source {b : Body} (seen : List String) (source : Option String)
    (fields : List (String × Value)) (hnone : b.source = none) (hseen : "source" ∉ seen) :
    record.fillFields seen b
        (fieldTreesOf ((source.toList.map fun s ↦ ("source", Value.text s)) ++ fields)) =
      record.fillFields ((source.toList.map fun _ ↦ "source") ++ seen) { b with source }
        (fieldTreesOf fields) := by
  cases source with
  | none =>
    obtain ⟨⟩ := b
    cases hnone
    rfl
  | some s =>
    exact Record.fillFields_cons rfl (by simpa using hseen) (Slot.fill_of (text?_tree s) _)

/-- The document of a body is decoded to the body. -/
theorem decodeJson_tree (b : Body) : decodeJson b.toJson.tree = .ok b := by
  obtain ⟨id, date, kind, source, sender, receivers, metadata, payload⟩ := b
  apply Record.decode_object
  case h =>
    refine (Record.fillFields_cons rfl rfl (Slot.fill_of (text_tree id) _)).trans ?_
    refine (Record.fillFields_cons rfl rfl (Slot.fill_of (text_tree date) _)).trans ?_
    refine (Record.fillFields_cons rfl rfl (Slot.fill_of (text_tree kind) _)).trans ?_
    refine (fillFields_source ["type", "date", "id"] source _ rfl (by decide)).trans ?_
    -- which names were seen depends on whether there is a source
    refine (Record.fillFields_cons rfl (by cases source <;> rfl)
      (Slot.fill_of (text_tree sender) _)).trans ?_
    refine (Record.fillFields_cons rfl (by cases source <;> rfl)
      (Slot.fill_of (list_text receivers) _)).trans ?_
    refine (Record.fillFields_cons rfl (by cases source <;> rfl)
      (Slot.fill_of (Metadata.decodeJson_tree metadata) _)).trans ?_
    exact Record.fillFields_cons rfl (by cases source <;> rfl)
      (Slot.fill_of (text_tree payload) _)
  case hmissing => cases source <;> rfl

/-- What is received by the body of a message is the message with its date as it is read. -/
theorem receive_ofMessage {m : Message} (hyear : DateText.FourDigitYear m.date)
    (sender : String) :
    (ofMessage m sender).receive = .ok (m.asRead.receivedFrom sender) := by
  unfold receive ofMessage
  dsimp only
  rw [DateText.decode_encode hyear, Text.Base64.decode_encode, Text.TextSet.ofList_toList]
  rfl

/-- **A message arrives as it was sent.** The text that is sent is read as the body that was
written, and what is received by it is the message as its sender delivers it, cut to milliseconds.
Its date may be in a leap second, as long as that closes its minute. -/
theorem received_as_sent (m : Message) (sender : String) (hdate : DateText.InDomain m.date) :
    (decodeText decodeJson (ofMessage m sender).toJson.compact).map receive =
      .ok (.ok (m.cutToMillis.receivedFrom sender)) := by
  rw [decodeText_compact, decodeJson_tree, Except.map, receive_ofMessage hdate.year,
    Message.asRead_eq hdate.closes]

/-- A message within a leap second, without a source, with texts that have to be escaped, with a
key that has two values and one that has none, and with a payload that has to be padded. -/
def leapMessage : Message where
  id := "\"1\"\n"
  date := ⟨1483228799, 1123456789, by decide, by decide, by decide⟩
  kind := "é\\\u0001"
  source := none
  receivers := Text.TextSet.ofList ["http://c", "http://b"]
  metadata := Text.TextMap.ofList [("k", ["v", ""]), ("empty", [])]
  payload := [0, 255, 128, 10]

theorem received_as_sent_of_leapMessage :
    leapMessage.date.isLeap = true ∧ DateText.InDomain leapMessage.date ∧
      (decodeText decodeJson (ofMessage leapMessage "http://a").toJson.compact).map receive =
        .ok (.ok { message := { leapMessage with
                     date := ⟨1483228799, 1123000000, by decide, by decide, by decide⟩
                     source := some "http://a" }
                   sender := "http://a" }) :=
  ⟨by decide, by decide, received_as_sent leapMessage "http://a" (by decide)⟩

end PeerRelay.Wire.Body
