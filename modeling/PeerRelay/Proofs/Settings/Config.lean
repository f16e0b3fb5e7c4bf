import PeerRelay.Proofs.Message.Json
import PeerRelay.Settings.Config

/-!
# Configurations as JSON

A configuration whose numbers fit into 64 bits is decoded to what was written (`decodeJson_tree`),
and whatever is decoded, from whatever text, has such numbers (`fits_of_decodeJson`): the defaults
have, and no slot lets a larger number in.
-/

namespace PeerRelay.Settings

open Json

/-- A number of 64 bits is decoded to what was written. -/
theorem natural_max64 {n : Nat} (expected : String) (h : n ≤ max64) :
    natural max64 expected (Value.number n).tree = .ok n :=
  natural_tree expected (by decide) h

namespace Limits

/-- The limits are numbers of 64 bits. -/
structure Fits (l : Limits) : Prop where
  storeCapacity : l.storeCapacity ≤ max64
  sendCapacity : l.sendCapacity ≤ max64
  shutdownSeconds : l.shutdownSeconds ≤ max64
  retryMillis : l.retryMillis ≤ max64

theorem decodeJson_tree {l : Limits} (h : l.Fits) : decodeJson l.toJson.tree = .ok l := by
  apply Record.decode_object
  case h =>
    refine (Record.fillFields_cons rfl rfl
      (Slot.fill_of (natural_max64 "usize" h.storeCapacity) _)).trans ?_
    refine (Record.fillFields_cons rfl rfl
      (Slot.fill_of (natural_max64 "usize" h.sendCapacity) _)).trans ?_
    refine (Record.fillFields_cons rfl rfl
      (Slot.fill_of (natural_max64 "u64" h.shutdownSeconds) _)).trans ?_
    exact Record.fillFields_cons rfl rfl (Slot.fill_of (natural_max64 "u64" h.retryMillis) _)
  case hmissing => rfl

theorem fits_of_decodeJson {l : Limits} {t : Tree} (h : decodeJson t = .ok l) : l.Fits := by
  refine Record.decode_kept (fun slot hslot t l l' hl hfill ↦ ?_)
    ⟨by decide, by decide, by decide, by decide⟩ h
  simp only [record, List.mem_cons, List.not_mem_nil, or_false] at hslot
  rcases hslot with rfl | rfl | rfl | rfl
  all_goals
    obtain ⟨n, hn, rfl⟩ := Slot.exists_of_fill hfill
    have hle := le_of_natural hn
  · exact { hl with storeCapacity := hle }
  · exact { hl with sendCapacity := hle }
  · exact { hl with shutdownSeconds := hle }
  · exact { hl with retryMillis := hle }

end Limits

namespace Connection

/-- The settings of the connection are numbers of 64 bits. -/
structure Fits (c : Connection) : Prop where
  timeoutSeconds : c.timeoutSeconds ≤ max64

theorem decodeJson_tree {c : Connection} (h : c.Fits) : decodeJson c.toJson.tree = .ok c := by
  apply Record.decode_object
  case h =>
    exact Record.fillFields_cons rfl rfl (Slot.fill_of (natural_max64 "u64" h.timeoutSeconds) _)
  case hmissing => rfl

theorem fits_of_decodeJson {c : Connection} {t : Tree} (h : decodeJson t = .ok c) : c.Fits := by
  refine Record.decode_kept (fun slot hslot t c c' hc hfill ↦ ?_) ⟨by decide⟩ h
  obtain rfl := List.mem_singleton.1 hslot
  obtain ⟨n, hn, rfl⟩ := Slot.exists_of_fill hfill
  exact ⟨le_of_natural hn⟩

end Connection

namespace Config

/-- The numbers of a configuration fit into 64 bits. -/
structure Fits (c : Config) : Prop where
  limits : c.limits.Fits
  connection : c.connection.Fits

/-- A configuration is decoded to what was written. -/
theorem decodeJson_tree {c : Config} (h : c.Fits) : decodeJson c.toJson.tree = .ok c := by
  have hpeers : list Instance.decodeJson (Value.array (c.peers.map Instance.toJson)).tree =
      .ok c.peers :=
    list_tree (List.forall₂_map_left_iff.2
      (List.forall₂_same.2 fun i _ ↦ Instance.decodeJson_tree i))
  apply Record.decode_object
  case h =>
    refine (Record.fillFields_cons rfl rfl (Slot.fill_of (text_tree c.logLevel) _)).trans ?_
    refine (Record.fillFields_cons rfl rfl
      (Slot.fill_of (Instance.decodeJson_tree c.self) _)).trans ?_
    refine (Record.fillFields_cons rfl rfl (Slot.fill_of hpeers _)).trans ?_
    refine (Record.fillFields_cons rfl rfl
      (Slot.fill_of (Limits.decodeJson_tree h.limits) _)).trans ?_
    exact Record.fillFields_cons rfl rfl
      (Slot.fill_of (Connection.decodeJson_tree h.connection) _)
  case hmissing => rfl

/-- What is decoded fits, whatever the text was. -/
theorem fits_of_decodeJson {c : Config} {t : Tree} (h : decodeJson t = .ok c) : c.Fits := by
  refine Record.decode_kept (fun slot hslot t c c' hc hfill ↦ ?_)
    ⟨⟨by decide, by decide, by decide, by decide⟩, ⟨by decide⟩⟩ h
  simp only [record, List.mem_cons, List.not_mem_nil, or_false] at hslot
  rcases hslot with rfl | rfl | rfl | rfl | rfl
  all_goals obtain ⟨value, hvalue, rfl⟩ := Slot.exists_of_fill hfill
  · exact ⟨hc.limits, hc.connection⟩
  · exact ⟨hc.limits, hc.connection⟩
  · exact ⟨hc.limits, hc.connection⟩
  · exact ⟨Limits.fits_of_decodeJson hvalue, hc.connection⟩
  · exact ⟨hc.limits, Connection.fits_of_decodeJson hvalue⟩

end Config

end PeerRelay.Settings
