import PeerRelay.Message.Json
import PeerRelay.Proofs.Calendar.LenientText
import PeerRelay.Proofs.Json.Decoding

/-!
# Messages as JSON

Messages and received messages are decoded to what was written, part by part: dates without loss if
a leap second closes its minute, receivers, metadata, and payloads byte by byte. The fields that
both kinds of messages have fill their slots in one way (`fillFields_leading`,
`fillFields_trailing`), wherever in a record the message is edited. Whatever is decoded has a date
that is decoded to itself (`Message.leapClosesMinute_of_decodeJson`).
-/

namespace PeerRelay

open Calendar Json

/-! ### Parts -/

theorem decodeDateJson_tree {t : Instant} (hcloses : t.LeapClosesMinute) :
    decodeDateJson (dateJson t).tree = .ok t := by
  have hdate : Lenient.decode (Lenient.encode t) = .ok t := Lenient.decode_encode hcloses
  have htext : (ofFault (.ok (Lenient.encode t)) : Except Problem String) =
      .ok (Lenient.encode t) := rfl
  rw [dateJson, Value.tree, decodeDateJson, htext, ok_bind, hdate]
  rfl

theorem leapClosesMinute_of_decodeDateJson {tree : Tree} {t : Instant}
    (h : decodeDateJson tree = .ok t) : t.LeapClosesMinute := by
  unfold decodeDateJson at h
  split at h
  · obtain ⟨s, -, h⟩ := bind_eq_ok.1 h
    split at h
    · rename_i hdate
      obtain rfl := Except.ok.inj h
      exact Lenient.leapClosesMinute_of_decode hdate
    · contradiction
  · exact absurd h mismatch_ne_ok

theorem decodeTextSetJson_tree (s : Text.TextSet) :
    decodeTextSetJson (Value.ofTexts s.toList).tree = .ok s := by
  rw [decodeTextSetJson, list_text]
  show Except.ok (Text.TextSet.ofList s.toList) = _
  rw [Text.TextSet.ofList_toList]

theorem Metadata.decodeJson_tree (m : Metadata) : Metadata.decodeJson m.toJson.tree = .ok m :=
  textMap_tree list_text m

theorem decodeBytesJson_tree (bytes : List UInt8) :
    decodeBytesJson (bytesJson bytes).tree = .ok bytes := by
  have hnumbers : list (natural 255 "u8") (bytesJson bytes).tree = .ok (bytes.map UInt8.toNat) :=
    list_tree (List.forall₂_map_left_iff.2 (List.forall₂_map_right_iff.2 (List.forall₂_same.2
      fun b _ ↦ natural_tree "u8" (by decide) (Nat.le_of_lt_succ b.toNat_lt))))
  rw [decodeBytesJson, hnumbers]
  have hinverse : UInt8.ofNat ∘ UInt8.toNat = id := funext fun _ ↦ UInt8.ofNat_toNat
  show Except.ok ((bytes.map UInt8.toNat).map UInt8.ofNat) = _
  rw [List.map_map, hinverse, List.map_id]

theorem Instance.decodeJson_tree (i : Instance) : Instance.decodeJson i.toJson.tree = .ok i := by
  apply Record.decode_object
  case h =>
    refine (Record.fillFields_cons rfl rfl (Slot.fill_of (text_tree i.name) _)).trans ?_
    exact Record.fillFields_cons rfl rfl (Slot.fill_of (text_tree i.uri) _)
  case hmissing => rfl

/-! ### Messages -/

namespace Message

section Slots

variable {σ : Type} {r : Record σ} {edit : (Message → Message) → σ → σ} (m : Message) (s : σ)
  (fields : List (String × Value))

/-- The fields before the sender set what they name. -/
theorem fillFields_leading (hcloses : m.date.LeapClosesMinute)
    (hnames : (r.slots.map (·.name)).Nodup)
    (hslots : leadingSlots edit ⊆ r.slots) :
    r.fillFields [] s (fieldTreesOf (m.leadingFields ++ fields)) =
      r.fillFields ["source", "message_type", "date", "id"]
        (edit (fun m' ↦ { m' with source := m.source }) <|
          edit (fun m' ↦ { m' with kind := m.kind }) <|
          edit (fun m' ↦ { m' with date := m.date }) <| edit (fun m' ↦ { m' with id := m.id }) s)
        (fieldTreesOf fields) := by
  have hfind : ∀ slot ∈ leadingSlots edit, r.slots.find? (·.name == slot.name) = some slot :=
    fun _ hslot ↦ Slot.find?_name hnames (hslots hslot)
  rw [leadingSlots] at hfind
  simp only [List.forall_mem_cons] at hfind
  obtain ⟨hid, hdate, hkind, hsource, -⟩ := hfind
  refine (Record.fillFields_cons hid rfl (Slot.fill_of (text_tree m.id) _)).trans ?_
  refine (Record.fillFields_cons hdate rfl (Slot.fill_of (decodeDateJson_tree hcloses) _)).trans ?_
  refine (Record.fillFields_cons hkind rfl (Slot.fill_of (text_tree m.kind) _)).trans ?_
  exact Record.fillFields_cons hsource rfl (Slot.fill_of (text?_ofText? m.source) _)

/-- The fields after the sender set what they name. -/
theorem fillFields_trailing (hnames : (r.slots.map (·.name)).Nodup)
    (hslots : trailingSlots edit ⊆ r.slots) {seen : List String}
    (hseen : ∀ slot ∈ trailingSlots edit, slot.name ∉ seen) :
    r.fillFields seen s (fieldTreesOf m.trailingFields) =
      .ok ("payload" :: "custom_metadata" :: "receivers" :: seen,
        edit (fun m' ↦ { m' with payload := m.payload }) <|
          edit (fun m' ↦ { m' with metadata := m.metadata }) <|
          edit (fun m' ↦ { m' with receivers := m.receivers }) s) := by
  have hfind : ∀ slot ∈ trailingSlots edit, r.slots.find? (·.name == slot.name) = some slot :=
    fun _ hslot ↦ Slot.find?_name hnames (hslots hslot)
  rw [trailingSlots] at hfind hseen
  simp only [List.forall_mem_cons, Slot.name_of] at hfind hseen
  obtain ⟨hreceivers, hmetadata, hpayload, -⟩ := hfind
  obtain ⟨hnew, hnew', hnew'', -⟩ := hseen
  have hcontains : seen.contains "receivers" = false := by simpa using hnew
  have hcontains' : ("receivers" :: seen).contains "custom_metadata" = false := by
    simpa using hnew'
  have hcontains'' : ("custom_metadata" :: "receivers" :: seen).contains "payload" = false := by
    simpa using hnew''
  refine (Record.fillFields_cons hreceivers hcontains
    (Slot.fill_of (decodeTextSetJson_tree m.receivers) _)).trans ?_
  refine (Record.fillFields_cons hmetadata hcontains'
    (Slot.fill_of (Metadata.decodeJson_tree m.metadata) _)).trans ?_
  exact Record.fillFields_cons hpayload hcontains''
    (Slot.fill_of (decodeBytesJson_tree m.payload) _)

/-- What is kept by edits that keep the date in a second that closes its minute is kept by the slots
of a message. -/
theorem kept_of_fill {kept : σ → Prop}
    (hedit : ∀ f s, kept s →
      (∀ m : Message, m.date.LeapClosesMinute → (f m).date.LeapClosesMinute) → kept (edit f s))
    {slot : Slot σ} (hslot : slot ∈ leadingSlots edit ++ trailingSlots edit) {t : Tree} {s s' : σ}
    (hs : kept s) (hfill : slot.fill t s = .ok s') : kept s' := by
  simp only [leadingSlots, trailingSlots, List.cons_append, List.nil_append, List.mem_cons,
    List.not_mem_nil, or_false] at hslot
  rcases hslot with rfl | rfl | rfl | rfl | rfl | rfl | rfl
  all_goals obtain ⟨value, hvalue, rfl⟩ := Slot.exists_of_fill hfill
  case inr.inl => exact hedit _ _ hs fun _ _ ↦ leapClosesMinute_of_decodeDateJson hvalue
  all_goals exact hedit _ _ hs fun _ hm ↦ hm

end Slots

/-- A message is decoded to what was written. -/
theorem decodeJson_tree {m : Message} (hcloses : m.date.LeapClosesMinute) :
    decodeJson m.toJson.tree = .ok m := by
  have hnames : (record.slots.map (·.name)).Nodup := by decide
  have hleading : leadingSlots (fun f ↦ f) ⊆ record.slots := List.subset_append_left _ _
  have htrailing : trailingSlots (fun f ↦ f) ⊆ record.slots := List.subset_append_right _ _
  apply Record.decode_object
  case h =>
    refine (fillFields_leading m _ _ hcloses hnames hleading).trans ?_
    exact fillFields_trailing m _ hnames htrailing (by decide)
  case hmissing => rfl

theorem leapClosesMinute_of_decodeJson {m : Message} {t : Tree} (h : decodeJson t = .ok m) :
    m.date.LeapClosesMinute := by
  refine @Record.decode_kept _ record m (fun m ↦ m.date.LeapClosesMinute)
    (fun slot hslot t m m' hm hfill ↦ ?_) t (by decide) h
  exact kept_of_fill (fun _ m hm hf ↦ hf m hm) hslot hm hfill

end Message

/-- A received message is decoded to what was written. -/
theorem Received.decodeJson_tree {r : Received} (hcloses : r.message.date.LeapClosesMinute) :
    decodeJson r.toJson.tree = .ok r := by
  have hnames : (record.slots.map (·.name)).Nodup := by decide
  have hleading : Message.leadingSlots editMessage ⊆ record.slots := List.subset_append_left _ _
  have htrailing : Message.trailingSlots editMessage ⊆ record.slots :=
    fun _ hslot ↦ List.mem_append_right _ (List.mem_cons_of_mem _ hslot)
  obtain ⟨⟨id, date, kind, source, receivers, metadata, payload⟩, sender⟩ := r
  apply Record.decode_object
  case h =>
    refine (Message.fillFields_leading _ _ _ hcloses hnames hleading).trans ?_
    refine (Record.fillFields_cons rfl rfl (Slot.fill_of (text_tree sender) _)).trans ?_
    exact Message.fillFields_trailing _ _ hnames htrailing (by decide)
  case hmissing => rfl

theorem Received.leapClosesMinute_of_decodeJson {r : Received} {t : Tree}
    (h : decodeJson t = .ok r) : r.message.date.LeapClosesMinute := by
  refine @Record.decode_kept _ record r (fun r ↦ r.message.date.LeapClosesMinute)
    (fun slot hslot t r r' hr hfill ↦ ?_) t (by decide) h
  simp only [record, List.mem_append, List.mem_cons] at hslot
  have hedit : ∀ (f : Message → Message) (r : Received), r.message.date.LeapClosesMinute →
      (∀ m : Message, m.date.LeapClosesMinute → (f m).date.LeapClosesMinute) →
      (editMessage f r).message.date.LeapClosesMinute :=
    fun _ r hr hf ↦ hf r.message hr
  rcases hslot with hleading | rfl | htrailing
  · exact Message.kept_of_fill hedit (List.mem_append_left _ hleading) hr hfill
  · obtain ⟨value, -, rfl⟩ := Slot.exists_of_fill hfill
    exact hr
  · exact Message.kept_of_fill hedit (List.mem_append_right _ htrailing) hr hfill

end PeerRelay
