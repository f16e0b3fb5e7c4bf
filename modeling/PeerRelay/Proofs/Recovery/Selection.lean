import PeerRelay.Proofs.Outcome
import PeerRelay.Proofs.Store.Targets
import PeerRelay.Recovery.Request

/-!
# The peers of a recovery request

Whoever asks for a recovery mentions peers by their URIs, in any order and as often as they like.
The selection fails at the first URI that no peer has (`selectPeers_eq_error`), and otherwise has a
peer for each URI that is mentioned, or all peers if none is (`uris_of_selectPeers`).

If no two peers have one URI then a selection is told by its URIs, and so is what a store makes of
it: each peer once that is mentioned, in the order in which they are mentioned first
(`chosen_of_selectPeers`).
-/

namespace PeerRelay.Recovery

variable {peers targets : List Instance} {uris : List String} {uri : String} {peer : Instance}
  {fault : SelectionFault}

/-! ### One peer -/

theorem findPeer_eq_ok :
    findPeer peers uri = .ok peer ↔ peers.find? (·.uri == uri) = some peer := by
  rw [findPeer]
  cases peers.find? (·.uri == uri) <;> simp

theorem of_findPeer (h : findPeer peers uri = .ok peer) : peer ∈ peers ∧ peer.uri = uri := by
  have hfind := findPeer_eq_ok.1 h
  exact ⟨List.mem_of_find?_eq_some hfind, by simpa using List.find?_some hfind⟩

theorem exists_findPeer (h : uri ∈ peers.map (·.uri)) : ∃ peer, findPeer peers uri = .ok peer := by
  obtain ⟨p, hp, rfl⟩ := List.mem_map.1 h
  have hfound : (peers.find? (·.uri == p.uri)).isSome :=
    List.find?_isSome.2 ⟨p, hp, beq_self_eq_true p.uri⟩
  obtain ⟨peer, hpeer⟩ := Option.isSome_iff_exists.1 hfound
  exact ⟨peer, findPeer_eq_ok.2 hpeer⟩

theorem findPeer_of_unknown (h : uri ∉ peers.map (·.uri)) :
    findPeer peers uri = .error (.unknownPeer uri) := by
  have hnone : peers.find? (·.uri == uri) = none :=
    List.find?_eq_none.2 fun p hp huri ↦ h (List.mem_map.2 ⟨p, hp, eq_of_beq huri⟩)
  rw [findPeer, hnone]

/-! ### Selections -/

/-- Peers are looked for up to the first URI that none of them has. -/
theorem mapM_findPeer_eq_error : uris.mapM (findPeer peers) = .error fault ↔
    ∃ uri, uris.find? (fun u ↦ u ∉ peers.map (·.uri)) = some uri ∧ fault = .unknownPeer uri := by
  induction uris with
  | nil => simp [pure, Except.pure]
  | cons first rest ih =>
    rw [List.mapM_cons]
    by_cases hknown : first ∈ peers.map (·.uri)
    · obtain ⟨peer, hpeer⟩ := exists_findPeer hknown
      rw [hpeer, ok_bind, List.find?_cons_of_neg (by simpa using hknown), ← ih]
      cases rest.mapM (findPeer peers) <;> simp [bind, Except.bind, pure, Except.pure]
    · rw [findPeer_of_unknown hknown, List.find?_cons_of_pos (by simpa using hknown)]
      simp [bind, Except.bind, eq_comm]

/-- A selection fails at the first URI that no peer has. -/
theorem selectPeers_eq_error : selectPeers peers uris = .error fault ↔
    ∃ uri, uris.find? (fun u ↦ u ∉ peers.map (·.uri)) = some uri ∧ fault = .unknownPeer uri := by
  rw [selectPeers]
  split
  · rename_i hnobody
    rw [List.isEmpty_iff.1 hnobody]
    simp
  · exact mapM_findPeer_eq_error

/-- It fails if such a URI is mentioned at all. -/
theorem exists_selectPeers_eq_error :
    (∃ fault, selectPeers peers uris = .error fault) ↔ ∃ uri ∈ uris, uri ∉ peers.map (·.uri) := by
  simp only [selectPeers_eq_error]
  constructor
  · rintro ⟨-, uri, hfind, -⟩
    exact ⟨uri, List.mem_of_find?_eq_some hfind, by simpa using List.find?_some hfind⟩
  · rintro ⟨uri, hmem, hunknown⟩
    have hfound : (uris.find? fun u ↦ u ∉ peers.map (·.uri)).isSome :=
      List.find?_isSome.2 ⟨uri, hmem, by simpa using hunknown⟩
    obtain ⟨first, hfirst⟩ := Option.isSome_iff_exists.1 hfound
    exact ⟨_, first, hfirst, rfl⟩

/-- Whoever is selected is one of the peers. -/
theorem mem_of_selectPeers (h : selectPeers peers uris = .ok targets) : targets ⊆ peers := by
  rw [selectPeers] at h
  split at h
  · exact Except.ok.inj h ▸ List.Subset.refl _
  · intro target htarget
    obtain ⟨uri, -, hfind⟩ := exists_left_of_forall₂ (mapM_eq_ok.1 h) htarget
    exact (of_findPeer hfind).1

/-- The URIs of a selection are those that are mentioned, or all of them. -/
theorem uris_of_selectPeers (h : selectPeers peers uris = .ok targets) :
    targets.map (·.uri) = if uris = [] then peers.map (·.uri) else uris := by
  rw [selectPeers] at h
  split at h
  · rename_i hnobody
    rw [if_pos (List.isEmpty_iff.1 hnobody), Except.ok.inj h]
  · rename_i hsomebody
    rw [if_neg fun hnobody ↦ hsomebody (List.isEmpty_iff.2 hnobody)]
    have hsame : uris.map id = targets.map (·.uri) :=
      map_eq_of_forall₂ (R := fun uri target ↦ findPeer peers uri = .ok target)
        (fun _ _ hfind ↦ (of_findPeer hfind).2.symm) (mapM_eq_ok.1 h)
    rw [← hsame, List.map_id]

theorem selectPeers_ne_nil (hsome : peers ≠ []) (h : selectPeers peers uris = .ok targets) :
    targets ≠ [] := by
  rintro rfl
  have huris := uris_of_selectPeers h
  split at huris
  · exact hsome (List.map_eq_nil_iff.1 huris.symm)
  · rename_i hsomebody
    exact hsomebody huris.symm

/-! ### What is left of a selection -/

/-- The peers that are asked if some URIs are mentioned: configured ones, in the order in which they
are mentioned first, or all of them if nobody is mentioned. -/
structure Chosen (peers : List Instance) (uris : List String) (asked : List Instance) : Prop where
  configured : asked ⊆ peers
  everyone : uris = [] → asked = peers
  mentioned : uris ≠ [] → asked.map (·.uri) = uris.eraseDups

/-- A store that takes each URI once is left with the peers that are asked. -/
theorem chosen_of_selectPeers (hdistinct : (peers.map (·.uri)).Nodup)
    (h : selectPeers peers uris = .ok targets) : Chosen peers uris (distinctByUri targets) where
  configured _ hasked :=
    mem_of_selectPeers h ((Store.distinctByUri_sublist targets).subset hasked)
  everyone hnobody := by
    obtain rfl : peers = targets := by
      rw [selectPeers, hnobody] at h
      exact Except.ok.inj h
    exact Store.distinctByUri_eq_self hdistinct
  mentioned hsomebody := by
    rw [Store.uris_distinctByUri, uris_of_selectPeers h, if_neg hsomebody]

/-- A peer is among those that are left of a selection if its URI is selected. -/
theorem mem_distinctByUri_of_selectPeers (hdistinct : (peers.map (·.uri)).Nodup)
    (h : selectPeers peers uris = .ok targets) (hpeer : peer ∈ peers) :
    peer ∈ distinctByUri targets ↔ peer.uri ∈ targets.map (·.uri) := by
  rw [List.mem_map, ← Store.exists_mem_distinctByUri_iff]
  constructor
  · exact fun hmem ↦ ⟨peer, hmem, rfl⟩
  · rintro ⟨target, htarget, huri⟩
    have hconfigured := mem_of_selectPeers h ((Store.distinctByUri_sublist targets).subset htarget)
    rwa [← List.inj_on_of_nodup_map hdistinct hconfigured hpeer huri]

end PeerRelay.Recovery
