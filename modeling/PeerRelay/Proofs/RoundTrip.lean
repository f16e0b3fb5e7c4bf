import PeerRelay.Proofs.Settings.Config
import PeerRelay.Proofs.Wire.Body

/-!
# What is written is read back

The types that have a document form are read back from it (`documents_roundTrip`): a message with
its date to the nanosecond, unless the date lies in a leap second in the middle of a minute, the
message as a peer receives it, the body on the wire, and the configuration as far as its numbers fit
into 64 bits. The values that can be read from a text are no more than these. So reading, writing
and reading again comes to the same as reading once, even where the text was written otherwise than
the library would: with the fields in another order, with defaults left out, as an array.
-/

namespace PeerRelay

open Json

section RoundTrip

variable {α : Type}

/-- The value is read back from its document, in both layouts. -/
def ReadBack (document : α → Value) (value : Decoder α) (a : α) : Prop :=
  decodeText value (document a).compact = .ok a ∧ decodeText value (document a).pretty = .ok a

/-- The values that are read back from their documents are those that fit, and whatever is read from
a text is such a value. -/
structure RoundTrip (fits : α → Prop) (document : α → Value) (value : Decoder α) : Prop where
  written : ∀ a, ReadBack document value a ↔ fits a
  accepted : ∀ s a, decodeText value s = .ok a → ReadBack document value a

theorem exists_tree_of_decodeText {value : Decoder α} {s : String} {a : α}
    (h : decodeText value s = .ok a) : ∃ t, value t = .ok a := by
  unfold decodeText at h
  dsimp only at h
  obtain ⟨a', ha', h⟩ := bind_eq_ok.1 h
  split at h
  case h_1 rest _ =>
    split at h
    case isTrue =>
      cases h
      exact ⟨_, ha'⟩
    case isFalse => cases h
  case h_2 => cases h

/-- It suffices that the trees of documents are decoded, and that no tree is decoded to a value that
does not fit. -/
theorem RoundTrip.of_tree {fits : α → Prop} {document : α → Value} {value : Decoder α}
    (htree : ∀ a, fits a → value (document a).tree = .ok a)
    (hfits : ∀ t a, value t = .ok a → fits a) : RoundTrip fits document value := by
  have hwritten : ∀ a, fits a → ReadBack document value a := fun a ha ↦
    ⟨by rw [decodeText_compact, htree a ha], by rw [decodeText_pretty, htree a ha]⟩
  have haccepted : ∀ s a, decodeText value s = .ok a → fits a := by
    intro s a h
    obtain ⟨t, ht⟩ := exists_tree_of_decodeText h
    exact hfits t a ht
  exact ⟨fun a ↦ ⟨fun h ↦ haccepted _ a h.1, hwritten a⟩,
    fun s a h ↦ hwritten a (haccepted s a h)⟩

/-- Where every value fits, there is nothing to be shown of what is decoded. -/
theorem RoundTrip.of_tree_of_all {document : α → Value} {value : Decoder α}
    (htree : ∀ a, value (document a).tree = .ok a) : RoundTrip (fun _ ↦ True) document value :=
  .of_tree (fun a _ ↦ htree a) fun _ _ _ ↦ trivial

end RoundTrip

/-- **Messages, received messages, bodies and configurations are read back as they were written.** A
date may be any instant but one in a leap second in the middle of a minute, and the numbers of a
configuration have 64 bits; all else is unbounded. What a text of any of them is read as can be
written and is read back. -/
theorem documents_roundTrip :
    RoundTrip (fun m ↦ m.date.LeapClosesMinute) Message.toJson Message.decodeJson ∧
      RoundTrip (fun r ↦ r.message.date.LeapClosesMinute) Received.toJson Received.decodeJson ∧
      RoundTrip (fun _ ↦ True) Wire.Body.toJson Wire.Body.decodeJson ∧
      RoundTrip Settings.Config.Fits Settings.Config.toJson Settings.Config.decodeJson :=
  ⟨.of_tree (fun _ ↦ Message.decodeJson_tree) fun _ _ ↦ Message.leapClosesMinute_of_decodeJson,
    .of_tree (fun _ ↦ Received.decodeJson_tree) fun _ _ ↦ Received.leapClosesMinute_of_decodeJson,
    .of_tree_of_all Wire.Body.decodeJson_tree,
    .of_tree (fun _ ↦ Settings.Config.decodeJson_tree) fun _ _ ↦ Settings.Config.fits_of_decodeJson⟩

/-- The text of a message with its fields in another order, without a source, with a field that is
unknown, with a key of the metadata that comes twice, and with the date of a leap second in another
zone. -/
def looseText : String :=
  "\x7b\"date\":\" 2015-7-1t0:59:60.75 +01:00\",\"id\":\"1\",\"x\":[null],\"payload\":[0,255]," ++
    "\"message_type\":\"t\",\"receivers\":[],\"custom_metadata\":" ++
    "\x7b\"k\":[\"a\"],\"k\":[\"b\"]\x7d\x7d"

/-- The message of the text. -/
def looseMessage : Message where
  id := "1"
  date := ⟨1435708799, 1750000000, by decide, by decide, by decide⟩
  kind := "t"
  source := none
  receivers := ∅
  metadata := Text.TextMap.ofList [("k", ["b"])]
  payload := [0, 255]

/-- The message of a loose text is read back, and so is a configuration that was given as an array
and without most of its values. -/
theorem documents_roundTrip_of_loose :
    (decodeText Message.decodeJson looseText = .ok looseMessage ∧
      ReadBack Message.toJson Message.decodeJson looseMessage) ∧
    decodeText Settings.Config.decodeJson "[\"info\",[\"a\",\"http://a\"]]" =
        .ok { self := ⟨"a", "http://a"⟩ } ∧
      ReadBack Settings.Config.toJson Settings.Config.decodeJson { self := ⟨"a", "http://a"⟩ } := by
  have hmessage : decodeText Message.decodeJson looseText = .ok looseMessage :=
    toOption_eq_some.1 (by decide +kernel)
  have hconfig : decodeText Settings.Config.decodeJson "[\"info\",[\"a\",\"http://a\"]]" =
      .ok { self := ⟨"a", "http://a"⟩ } :=
    toOption_eq_some.1 (by decide +kernel)
  exact ⟨⟨hmessage, documents_roundTrip.1.accepted _ _ hmessage⟩, hconfig,
    documents_roundTrip.2.2.2.accepted _ _ hconfig⟩

end PeerRelay
