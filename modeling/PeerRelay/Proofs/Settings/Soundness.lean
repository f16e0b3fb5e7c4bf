import PeerRelay.Proofs.Outcome
import PeerRelay.Settings.Validation

/-!
# What a check of a configuration finds

The check stops at the first thing that is wrong. What it may find wrong with a peer, given the
peers before it, is `PeerFault`, and a peer with nothing wrong is a `SoundPeer`; one of the two is
the case (`soundPeer_or_fault`), and the check goes on behind a sound peer with one more URI that
was seen. By induction on the peers, from any URIs that were seen before, it accepts the peers of
which each is sound and no two have one URI (`checkPeers_eq_ok`), and otherwise reports the fault of
the first peer that is not sound behind those before it (`checkPeers_eq_error`).

A configuration is accepted if and only if it is sound (`validateWith_eq_ok`), and its first fault
is reported otherwise (`validateWith_eq_error`). How the form of a URI is judged is left open.
-/

namespace PeerRelay.Settings

variable {check : UriCheck} {own uri : String} {seen seen' : List String} {peer : Instance}
  {peers : List Instance} {fault : ConfigFault} {c : Config}

theorem checkUri_eq_ok : checkUri check uri = .ok () ↔ check uri = .ok () := by
  rw [checkUri]
  cases check uri <;> simp [Except.mapError]

theorem checkUri_eq_error :
    checkUri check uri = .error fault ↔ ∃ form, check uri = .error form ∧ fault = .badUri form := by
  rw [checkUri]
  cases check uri <;> simp [Except.mapError, eq_comm]

/-! ### One peer -/

/-- A peer has a URI of good form, which is neither that of the instance itself nor one that was
seen. -/
structure SoundPeer (check : UriCheck) (own : String) (seen : List String) (peer : Instance) :
    Prop where
  wellFormed : check peer.uri = .ok ()
  notSelf : peer.uri ≠ own
  new : peer.uri ∉ seen

/-- The first thing that is wrong with a peer: the form of its URI, then that it is the instance
itself, then that its URI was seen. -/
inductive PeerFault (check : UriCheck) (own : String) (seen : List String) (peer : Instance) :
    ConfigFault → Prop
  | badUri (form : Url.Fault) (illFormed : check peer.uri = .error form) :
      PeerFault check own seen peer (.badUri form)
  | selfPeer (wellFormed : check peer.uri = .ok ()) (isSelf : peer.uri = own) :
      PeerFault check own seen peer (.selfPeer peer.uri)
  | repeatedPeer (wellFormed : check peer.uri = .ok ()) (notSelf : peer.uri ≠ own)
      (repeated : peer.uri ∈ seen) : PeerFault check own seen peer (.repeatedPeer peer.uri)

theorem soundPeer_or_fault (check : UriCheck) (own : String) (seen : List String)
    (peer : Instance) :
    SoundPeer check own seen peer ∨ ∃ fault, PeerFault check own seen peer fault := by
  cases hcheck : check peer.uri with
  | error form => exact Or.inr ⟨_, .badUri form hcheck⟩
  | ok _ =>
    by_cases hself : peer.uri = own
    · exact Or.inr ⟨_, .selfPeer hcheck hself⟩
    · by_cases hseen : peer.uri ∈ seen
      · exact Or.inr ⟨_, .repeatedPeer hcheck hself hseen⟩
      · exact Or.inl ⟨hcheck, hself, hseen⟩

theorem SoundPeer.not_fault (h : SoundPeer check own seen peer) :
    ¬ PeerFault check own seen peer fault := by
  rintro (⟨form, illFormed⟩ | ⟨-, isSelf⟩ | ⟨-, -, repeated⟩)
  · cases h.wellFormed.symm.trans illFormed
  · exact h.notSelf isSelf
  · exact h.new repeated

/-- In which order URIs were seen makes no difference. -/
theorem PeerFault.of_mem_iff (h : PeerFault check own seen peer fault)
    (hseen : ∀ uri, uri ∈ seen ↔ uri ∈ seen') : PeerFault check own seen' peer fault := by
  cases h with
  | badUri form illFormed => exact .badUri form illFormed
  | selfPeer wellFormed isSelf => exact .selfPeer wellFormed isSelf
  | repeatedPeer wellFormed notSelf repeated =>
    exact .repeatedPeer wellFormed notSelf ((hseen _).1 repeated)

theorem checkPeers_cons_of_sound (h : SoundPeer check own seen peer) :
    checkPeers check own seen (peer :: peers) =
      checkPeers check own (peer.uri :: seen) peers := by
  rw [checkPeers, checkUri_eq_ok.2 h.wellFormed, ok_bind]
  dsimp only
  rw [if_neg h.notSelf, if_neg h.new]

theorem checkPeers_cons_of_fault (h : PeerFault check own seen peer fault) :
    checkPeers check own seen (peer :: peers) = .error fault := by
  rw [checkPeers]
  cases h with
  | badUri form illFormed =>
    rw [checkUri_eq_error.2 ⟨form, illFormed, rfl⟩]
    rfl
  | selfPeer wellFormed isSelf =>
    rw [checkUri_eq_ok.2 wellFormed, ok_bind]
    dsimp only
    rw [if_pos isSelf]
    rfl
  | repeatedPeer wellFormed notSelf repeated =>
    rw [checkUri_eq_ok.2 wellFormed, ok_bind]
    dsimp only
    rw [if_neg notSelf, if_pos repeated]
    rfl

/-! ### All peers -/

/-- Peers are accepted if each of them is sound and no URI is repeated. -/
theorem checkPeers_eq_ok : checkPeers check own seen peers = .ok () ↔
    (∀ peer ∈ peers, SoundPeer check own seen peer) ∧ (peers.map (·.uri)).Nodup := by
  induction peers generalizing seen with
  | nil => simp [checkPeers]
  | cons peer rest ih =>
    rw [List.forall_mem_cons, List.map_cons, List.nodup_cons]
    rcases soundPeer_or_fault check own seen peer with hsound | ⟨fault, hfault⟩
    · -- that the rest does not repeat the peer is part of what was seen there
      have hrest : (∀ p ∈ rest, SoundPeer check own (peer.uri :: seen) p) ↔
          (∀ p ∈ rest, SoundPeer check own seen p) ∧ peer.uri ∉ rest.map (·.uri) := by
        rw [List.mem_map]
        constructor
        · intro h
          refine ⟨fun p hp ↦ ?_, ?_⟩
          · exact ⟨(h p hp).wellFormed, (h p hp).notSelf,
              fun hseen ↦ (h p hp).new (List.mem_cons_of_mem _ hseen)⟩
          · rintro ⟨p, hp, huri⟩
            exact (h p hp).new (List.mem_cons.2 (Or.inl huri))
        · rintro ⟨h, hnew⟩ p hp
          refine ⟨(h p hp).wellFormed, (h p hp).notSelf, fun hseen ↦ ?_⟩
          rcases List.mem_cons.1 hseen with huri | hseen
          · exact hnew ⟨p, hp, huri⟩
          · exact (h p hp).new hseen
      rw [checkPeers_cons_of_sound hsound, ih, hrest, and_iff_right hsound, and_assoc]
    · rw [checkPeers_cons_of_fault hfault]
      exact iff_of_false (fun h ↦ nomatch h) fun h ↦ h.1.1.not_fault hfault

/-- Otherwise the fault is that of the first peer that is not sound behind those before it. -/
theorem checkPeers_eq_error : checkPeers check own seen peers = .error fault ↔
    ∃ before peer after, peers = before ++ peer :: after ∧
      checkPeers check own seen before = .ok () ∧
      PeerFault check own (before.map (·.uri) ++ seen) peer fault := by
  induction peers generalizing seen with
  | nil => simp [checkPeers]
  | cons first rest ih =>
    rcases soundPeer_or_fault check own seen first with hsound | ⟨found, hfound⟩
    · rw [checkPeers_cons_of_sound hsound, ih]
      constructor
      · rintro ⟨before, peer, after, rfl, hbefore, hfault⟩
        refine ⟨first :: before, peer, after, rfl, ?_, hfault.of_mem_iff fun uri ↦ ?_⟩
        · rw [checkPeers_cons_of_sound hsound, hbefore]
        · simp [or_left_comm]
      · rintro ⟨before, peer, after, hlist, hbefore, hfault⟩
        cases before with
        | nil =>
          obtain ⟨rfl, -⟩ := List.cons.inj hlist
          exact absurd hfault hsound.not_fault
        | cons _ before =>
          obtain ⟨rfl, rfl⟩ := List.cons.inj hlist
          rw [checkPeers_cons_of_sound hsound] at hbefore
          exact ⟨before, peer, after, rfl, hbefore, hfault.of_mem_iff fun uri ↦ by
            simp [or_left_comm]⟩
    · rw [checkPeers_cons_of_fault hfound, Except.error.injEq]
      constructor
      · rintro rfl
        exact ⟨[], first, rest, rfl, rfl, hfound⟩
      · rintro ⟨before, peer, after, hlist, hbefore, hfault⟩
        cases before with
        | nil =>
          obtain ⟨rfl, -⟩ := List.cons.inj hlist
          have hsame := (checkPeers_cons_of_fault hfound).symm.trans
            (checkPeers_cons_of_fault hfault : checkPeers check own seen [first] = .error fault)
          exact Except.error.inj hsame
        | cons _ before =>
          obtain ⟨rfl, -⟩ := List.cons.inj hlist
          rw [checkPeers_cons_of_fault hfound] at hbefore
          cases hbefore

/-! ### Configurations -/

/-- The URIs of peers are of good form, none is that of the instance itself and none is repeated. -/
structure SoundPeers (check : UriCheck) (own : String) (peers : List Instance) : Prop where
  wellFormed : ∀ peer ∈ peers, check peer.uri = .ok ()
  notSelf : ∀ peer ∈ peers, peer.uri ≠ own
  distinct : (peers.map (·.uri)).Nodup

/-- A configuration has URIs of good form only, each of them once, and room in both queues. -/
structure Config.Sound (check : UriCheck) (c : Config) : Prop where
  wellFormed : check c.self.uri = .ok ()
  peers : SoundPeers check c.self.uri c.peers
  storeRoom : 1 ≤ c.limits.storeCapacity
  sendRoom : 1 ≤ c.limits.sendCapacity

/-- The first fault of a configuration, when the instance itself is looked at before the peers in
their order, and the queues come last. -/
inductive Config.FirstFault (check : UriCheck) (c : Config) : ConfigFault → Prop
  | self (form : Url.Fault) (illFormed : check c.self.uri = .error form) :
      FirstFault check c (.badUri form)
  | peer (before : List Instance) (peer : Instance) (after : List Instance) (fault : ConfigFault)
      (wellFormed : check c.self.uri = .ok ()) (listed : c.peers = before ++ peer :: after)
      (sound : SoundPeers check c.self.uri before)
      (faulty : PeerFault check c.self.uri (before.map (·.uri)) peer fault) :
      FirstFault check c fault
  | noCapacity (wellFormed : check c.self.uri = .ok ())
      (sound : SoundPeers check c.self.uri c.peers)
      (noRoom : c.limits.storeCapacity = 0 ∨ c.limits.sendCapacity = 0) :
      FirstFault check c .noCapacity

theorem soundPeers_iff : checkPeers check own [] peers = .ok () ↔ SoundPeers check own peers := by
  rw [checkPeers_eq_ok]
  constructor
  · rintro ⟨hsound, hnodup⟩
    exact ⟨fun peer hpeer ↦ (hsound peer hpeer).wellFormed,
      fun peer hpeer ↦ (hsound peer hpeer).notSelf, hnodup⟩
  · intro h
    exact ⟨fun peer hpeer ↦ ⟨h.wellFormed peer hpeer, h.notSelf peer hpeer, List.not_mem_nil⟩,
      h.distinct⟩

theorem validateWith_eq_ok : c.validateWith check = .ok () ↔ c.Sound check := by
  have hroom : (if c.limits.storeCapacity = 0 ∨ c.limits.sendCapacity = 0 then
        throw ConfigFault.noCapacity else pure () : Except ConfigFault Unit) = .ok () ↔
      1 ≤ c.limits.storeCapacity ∧ 1 ≤ c.limits.sendCapacity := by
    split
    · rename_i hnone
      exact iff_of_false (fun h ↦ nomatch h) (by omega)
    · rename_i hroom
      exact iff_of_true rfl (by omega)
  rw [Config.validateWith]
  simp only [bind_eq_ok, hroom]
  constructor
  · rintro ⟨⟨⟩, hself, ⟨⟩, hpeers, hstore, hsend⟩
    exact ⟨checkUri_eq_ok.1 hself, soundPeers_iff.1 hpeers, hstore, hsend⟩
  · intro h
    exact ⟨(), checkUri_eq_ok.2 h.wellFormed, (), soundPeers_iff.2 h.peers, h.storeRoom, h.sendRoom⟩

/-- A configuration with a fault is refused with it. -/
theorem Config.FirstFault.validateWith (h : c.FirstFault check fault) :
    c.validateWith check = .error fault := by
  rw [Config.validateWith]
  cases h with
  | self form illFormed =>
    rw [checkUri_eq_error.2 ⟨form, illFormed, rfl⟩]
    rfl
  | peer before peer after fault wellFormed listed sound faulty =>
    have hpeers : checkPeers check c.self.uri [] c.peers = .error fault :=
      checkPeers_eq_error.2 ⟨before, peer, after, listed, soundPeers_iff.2 sound, by
        rwa [List.append_nil]⟩
    rw [checkUri_eq_ok.2 wellFormed, ok_bind, hpeers]
    rfl
  | noCapacity wellFormed sound noRoom =>
    rw [checkUri_eq_ok.2 wellFormed, ok_bind, soundPeers_iff.2 sound, ok_bind]
    exact if_pos noRoom

theorem sound_or_firstFault (check : UriCheck) (c : Config) :
    c.Sound check ∨ ∃ fault, c.FirstFault check fault := by
  cases hself : check c.self.uri with
  | error form => exact Or.inr ⟨_, .self form hself⟩
  | ok _ =>
    cases hpeers : checkPeers check c.self.uri [] c.peers with
    | error fault =>
      obtain ⟨before, peer, after, hlist, hbefore, hfault⟩ := checkPeers_eq_error.1 hpeers
      rw [List.append_nil] at hfault
      exact Or.inr ⟨fault, .peer before peer after fault hself hlist (soundPeers_iff.1 hbefore)
        hfault⟩
    | ok _ =>
      have hsound := soundPeers_iff.1 hpeers
      by_cases hroom : c.limits.storeCapacity = 0 ∨ c.limits.sendCapacity = 0
      · exact Or.inr ⟨_, .noCapacity hself hsound hroom⟩
      · exact Or.inl ⟨hself, hsound, by omega, by omega⟩

theorem validateWith_eq_error : c.validateWith check = .error fault ↔ c.FirstFault check fault := by
  refine ⟨fun hrefused ↦ ?_, Config.FirstFault.validateWith⟩
  rcases sound_or_firstFault check c with hsound | ⟨first, hfirst⟩
  · cases (validateWith_eq_ok.2 hsound).symm.trans hrefused
  · obtain rfl : first = fault := Except.error.inj (hfirst.validateWith.symm.trans hrefused)
    exact hfirst

end PeerRelay.Settings
