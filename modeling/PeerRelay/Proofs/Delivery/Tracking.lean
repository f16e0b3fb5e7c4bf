import PeerRelay.Proofs.Delivery.Moments
import PeerRelay.Proofs.Delivery.Progress
import PeerRelay.Proofs.Delivery.Reloading

/-!
# Which peers are given up

A parcel notes, when it is put together, which of its peers the directory knows. Every parcel that
is found later under the same ticket, in the outbox, in line for it, asleep or in the hands of the
sending worker, comes from that one and carries the same note (`Traced`), however often it was
retried and whatever happened to the directory meanwhile. A ticket is forwarded once
(`forwardedParcels_nodup`), so that there is one such moment for it.

So what becomes of a failed call depends on the directory at two moments only: when the parcel was
put together, and when the peer is looked up after the call (`given_up_iff_unregistered`).
-/

namespace PeerRelay.Delivery

open Observation World

/-! ### Notes -/

namespace Parcel

/-- A parcel under the ticket of another one, for some of its peers and with its notes on them. -/
structure ComesFrom (q p : Parcel) : Prop where
  ticket : q.ticket = p.ticket
  message : q.message = p.message
  targets : q.targets ⊆ p.targets
  known : ∀ i ∈ q.targets, q.wasKnown i.uri = p.wasKnown i.uri

theorem ComesFrom.refl (p : Parcel) : p.ComesFrom p :=
  ⟨rfl, rfl, List.Subset.refl _, fun _ _ ↦ rfl⟩

variable {p q : Parcel} {i : Instance}

/-- A retry keeps the note on its peer. -/
@[simp] theorem wasKnown_retry (p : Parcel) (i : Instance) :
    (p.retry i).wasKnown i.uri = p.wasKnown i.uri := by
  simp only [retry]
  cases h : p.wasKnown i.uri <;> simp [wasKnown]

theorem ComesFrom.retry (h : q.ComesFrom p) (hi : i ∈ q.targets) : (q.retry i).ComesFrom p where
  ticket := h.ticket
  message := h.message
  targets := by
    intro j hj
    obtain rfl := List.mem_singleton.1 hj
    exact h.targets hi
  known := by
    intro j hj
    obtain rfl := List.mem_singleton.1 hj
    rw [wasKnown_retry, h.known j hi]

/-- A new parcel notes a peer if it is a target and the directory knows it. -/
theorem wasKnown_track_iff {directory : Directory} {ticket : Nat} {m : Message}
    {targets : List Instance} {uri : String} :
    (track directory ticket m targets).wasKnown uri = true ↔
      (∃ i ∈ targets, i.uri = uri) ∧ directory.contains uri = true := by
  rw [wasKnown, track, List.contains_iff_mem, List.mem_map]
  constructor
  · rintro ⟨i, hi, rfl⟩
    obtain ⟨htarget, hknown⟩ := List.mem_filter.1 hi
    exact ⟨⟨i, htarget, rfl⟩, hknown⟩
  · rintro ⟨⟨i, hi, rfl⟩, hknown⟩
    exact ⟨i, List.mem_filter.2 ⟨hi, hknown⟩, rfl⟩

/-- Of its targets it notes what the directory knows. -/
theorem wasKnown_track (directory : Directory) (ticket : Nat) (m : Message)
    {targets : List Instance} (hi : i ∈ targets) :
    (track directory ticket m targets).wasKnown i.uri = directory.contains i.uri := by
  rw [Bool.eq_iff_iff, wasKnown_track_iff, and_iff_right ⟨i, hi, rfl⟩]

end Parcel

/-! ### Parcels under way -/

namespace Generation

/-- The parcels that the sending worker will take: those in the outbox, those of who waits for room,
and the retries that sleep. -/
def parcels (g : Generation) : List Parcel :=
  g.outbox.entries ++ g.waiting.map (·.2) ++ g.sleeping.map (·.2)

/-- The parcel that the sending worker has in hand, and those that it will take. -/
def carried (g : Generation) : List Parcel :=
  (g.tour.map (·.parcel)).toList ++ g.parcels

section Places

variable {g : Generation} {who : Waiter} {p q : Parcel}

/-- What is offered to an open outbox is one parcel more. -/
theorem parcels_offer (isOpen : g.outbox.isOpen = true) :
    (g.offer who p).parcels.Perm (p :: g.parcels) := by
  rcases g.offer_cases who p with ⟨hclosed, -⟩ | ⟨-, -, h⟩ | ⟨-, -, h⟩
  · simp [isOpen] at hclosed
  · rw [h, parcels, parcels, Queue.push]
    simp only [List.append_assoc, List.singleton_append]
    exact List.perm_middle
  · rw [h, parcels, parcels]
    simp only [List.map_append, List.map_cons, List.map_nil, List.append_assoc,
      List.singleton_append]
    rw [← List.append_assoc, ← List.append_assoc]
    exact List.perm_middle

theorem mem_parcels_offer (h : q ∈ (g.offer who p).parcels) : q = p ∨ q ∈ g.parcels := by
  cases hopen : g.outbox.isOpen with
  | true => exact List.mem_cons.1 ((parcels_offer hopen).mem_iff.1 h)
  | false => exact Or.inr (offer_of_closed who p hopen ▸ h)

theorem parcels_reinject {clock : Nat} (isOpen : g.outbox.isOpen = true) :
    (g.reinject clock p).parcels.Perm (p :: g.parcels) := by
  rcases g.reinject_cases clock p with ⟨due, h⟩ | h
  · rw [h, parcels, parcels, List.map_append, ← List.append_assoc]
    exact List.perm_append_singleton _ _
  · rw [h]
    exact parcels_offer isOpen

theorem mem_parcels_reinject {clock : Nat} (h : q ∈ (g.reinject clock p).parcels) :
    q = p ∨ q ∈ g.parcels := by
  rcases g.reinject_cases clock p with ⟨due, heq⟩ | heq
  · rw [heq, parcels, List.map_append, ← List.append_assoc] at h
    exact (List.mem_append.1 h).symm.imp_left List.mem_singleton.1
  · exact mem_parcels_offer (heq ▸ h)

@[simp] theorem parcels_release : (g.release who).parcels = g.parcels := by
  rw [parcels, parcels, release_outbox, release_waiting, release_sleeping]

theorem mem_carried_of_parcels (h : q ∈ g.parcels) : q ∈ g.carried :=
  List.mem_append_right _ h

theorem mem_carried_of_tour {t : Tour} (touring : g.tour = some t) : t.parcel ∈ g.carried := by
  simp [carried, touring]

/-- A tour that goes on is for the same parcel. -/
theorem parcel_next {t : Tour} (h : q ∈ (t.next.map (·.parcel)).toList) : q = t.parcel := by
  rw [Tour.next] at h
  split at h <;> simp_all

end Places

variable {w : World} {g : Generation} {a : Action} {c : Change}

/-- A parcel that is under way was so before, was just put together, or is the retry of a call. -/
theorem Acts.carried_cases (h : g.Acts w a c) {q : Parcel} (hq : q ∈ c.generation.carried) :
    q ∈ g.carried ∨ .forwarded q ∈ c.seen ∨
      ∃ p ahead i, g.tour = some ⟨p, ahead, .retrying i⟩ ∧ q = p.retry i := by
  cases h with
  | forward s targets written p parcel storing waits =>
    rcases List.mem_append.1 hq with htour | hq
    · rw [offer_tour] at htour
      exact Or.inl (List.mem_append_left _ htour)
    · rcases mem_parcels_offer hq with rfl | hbefore
      · exact Or.inr (Or.inl List.mem_cons_self)
      · exact Or.inl (mem_carried_of_parcels hbefore)
  | reload ticket record rest next p parcel =>
    rcases List.mem_append.1 hq with htour | hq
    · rw [offer_tour] at htour
      exact Or.inl (List.mem_append_left _ htour)
    · rcases mem_parcels_offer hq with rfl | hbefore
      · exact Or.inr (Or.inl List.mem_cons_self)
      · exact Or.inl (mem_carried_of_parcels hbefore)
  | enter who p rest front isOpen =>
    refine Or.inl ?_
    rw [carried, release_tour, parcels_release] at hq
    simp only [carried, parcels, front, Queue.push, List.mem_append, List.map_cons,
      List.mem_cons] at hq ⊢
    grind
  | enterClosed who p rest front isClosed =>
    refine Or.inl ?_
    rw [carried, release_tour, parcels_release] at hq
    simp only [carried, parcels, front, List.mem_append, List.map_cons, List.mem_cons] at hq ⊢
    grind
  | cancel condemned waits =>
    refine Or.inl ?_
    simp only [carried, parcels, List.mem_append, List.mem_map, List.mem_filter] at hq ⊢
    grind
  | take p rest idle front =>
    refine Or.inl ?_
    simpa [carried, parcels, idle, front] using hq
  | attempt p target ahead next =>
    refine Or.inl ?_
    simpa [carried, parcels, next] using hq
  | callDelivers p ahead target leg | callFails p ahead target leg | announce p ahead target leg
  | giveUpPeer p ahead target leg | keepPeer p ahead target leg =>
    refine Or.inl ?_
    simpa [carried, parcels, leg] using hq
  | forget p ahead target removal leaving db done forgets =>
    refine Or.inl ?_
    rcases List.mem_append.1 hq with htour | hq
    · exact parcel_next htour ▸ mem_carried_of_tour leaving
    · exact mem_carried_of_parcels hq
  | putBack p ahead target retrying =>
    rcases List.mem_append.1 hq with htour | hq
    · rw [reinject_tour] at htour
      exact Or.inl (parcel_next htour ▸ mem_carried_of_tour retrying)
    · rcases mem_parcels_reinject hq with rfl | hbefore
      · exact Or.inr (Or.inr ⟨p, ahead, target, retrying, rfl⟩)
      · exact Or.inl (mem_carried_of_parcels hbefore)
  | wake position due p sleeps isDue =>
    have hp : (due, p) ∈ g.sleeping := List.mem_of_getElem? sleeps
    refine Or.inl ?_
    rcases List.mem_append.1 hq with htour | hq
    · rw [offer_tour] at htour
      exact List.mem_append_left _ htour
    · refine mem_carried_of_parcels ?_
      rcases mem_parcels_offer hq with rfl | hbefore
      · exact List.mem_append_right _ (List.mem_map_of_mem hp)
      · simp only [parcels, List.mem_append] at hbefore ⊢
        refine hbefore.imp_right fun hsleeps ↦ ?_
        obtain ⟨x, hx, rfl⟩ := List.mem_map.1 hsleeps
        exact List.mem_map_of_mem (List.mem_of_mem_eraseIdx hx)
  | _ =>
    refine Or.inl ?_
    simp_all [carried, parcels, abortSending, Queue.abandon]

/-- The peers of a tour are peers of its parcel. -/
def OnCourse (g : Generation) : Prop :=
  ∀ t, g.tour = some t → t.leg.peer?.toList ++ t.ahead ⊆ t.parcel.targets

theorem OnCourse.next {t t' : Tour} (h : g.OnCourse) (touring : g.tour = some t)
    (hnext : t.next = some t') : t'.leg.peer?.toList ++ t'.ahead ⊆ t'.parcel.targets := by
  rw [Tour.next] at hnext
  split at hnext
  · cases hnext
  · cases hnext
    exact List.Subset.trans (List.subset_append_right _ _) (h t touring)

theorem Acts.onCourse (h : g.Acts w a c) (hg : g.OnCourse) : c.generation.OnCourse := by
  intro t' touring'
  cases h with
  | take p rest idle front =>
    cases touring'
    exact List.Subset.refl _
  | attempt p target ahead leg | callDelivers p ahead target leg | callFails p ahead target leg
  | announce p ahead target leg | giveUpPeer p ahead target leg | keepPeer p ahead target leg =>
    cases touring'
    have hcourse := hg _ leg
    exact hcourse
  | forget p ahead target removal leaving db done forgets => exact hg.next leaving touring'
  | putBack p ahead target retrying =>
    rw [reinject_tour] at touring'
    exact hg.next retrying touring'
  | _ =>
    simp only [offer_tour, release_tour, abortSending] at touring'
    first
    | exact hg t' touring'
    | cases touring'

/-- What an action forwards is put together as the directory is. -/
theorem Acts.track_of_forwarded (h : g.Acts w a c) {p : Parcel} (hp : .forwarded p ∈ c.seen) :
    ∃ ticket m targets, p = Parcel.track w.directory ticket m targets := by
  cases h with
  | forward s targets written p' parcel storing waits =>
    obtain rfl := Observation.forwarded.inj (List.mem_singleton.1 hp)
    exact ⟨_, _, _, parcel⟩
  | reload ticket record rest next p' parcel =>
    obtain rfl := Observation.forwarded.inj (List.mem_singleton.1 hp)
    exact ⟨_, _, _, parcel⟩
  | _ => simp at hp

end Generation

/-- Every parcel that is under way comes from one that was forwarded. -/
structure Traced (g : Generation) (tr : List Observation) : Prop where
  origin : ∀ q ∈ g.carried, ∃ p, .forwarded p ∈ tr ∧ q.ComesFrom p
  course : g.OnCourse

theorem Traced.later {g : Generation} {tr : List Observation} (h : Traced g tr)
    (seen : List Observation) : Traced g (seen ++ tr) where
  origin q hq := (h.origin q hq).imp fun _ hp ↦ ⟨List.mem_append_right _ hp.1, hp.2⟩
  course := h.course

theorem traced_invariant :
    LocalInvariant (fun _ ↦ True) (fun _ _ _ ↦ True) (fun _ g tr ↦ Traced g tr) where
  start first settings records := by
    refine ⟨?_, fun t touring ↦ ?_⟩
    · simp [Generation.carried, Generation.parcels, newGeneration, Queue.make]
    · cases touring
  later _ h := h
  refuse m targets closed _ ih := ih.later [_, _]
  call m targets isOpen inUse _ ih := ⟨(ih.later [_]).origin, ih.course⟩
  act := by
    intro w g tr a c _ hacts _ ih
    refine ⟨fun q hq ↦ ?_, hacts.onCourse ih.course⟩
    rcases hacts.carried_cases hq with hbefore | hnew | ⟨q, ahead, i, retrying, rfl⟩
    · exact (ih.later _).origin q hbefore
    · exact ⟨q, List.mem_append_left _ (List.mem_reverse.2 hnew), .refl q⟩
    · obtain ⟨p, hp, hfrom⟩ := ih.origin _ (Generation.mem_carried_of_tour retrying)
      have hi : i ∈ q.targets := ih.course _ retrying List.mem_cons_self
      exact ⟨p, List.mem_append_right _ hp, hfrom.retry hi⟩

/-! ### Nothing is forwarded twice -/

/-- The parcel that was put together. -/
def Observation.parcel? : Observation → Option Parcel
  | .forwarded p => some p
  | _ => none

/-- What is forwarded was dealt with or reloaded before, and not forwarded since. -/
def ForwardedOnce (g : Generation) (tr : List Observation) : Prop :=
  ∀ k, ((tr.filterMap parcel?).map (·.ticket)).count k +
      (g.storing.consigned.map (·.ticket)).count k + (g.reload.ahead.map (·.1)).count k ≤
    ((tr.filterMap consigned?).map (·.ticket)).count k + (tr.filterMap reloaded?).count k

theorem Generation.count_ahead_release (g : Generation) (who : Waiter) (k : Nat) :
    ((g.release who).reload.ahead.map (·.1)).count k ≤ (g.reload.ahead.map (·.1)).count k := by
  cases who with
  | reload =>
    simp only [release, toReload]
    split
    · exact Nat.le_refl _
    · exact Nat.zero_le _
  | _ => exact Nat.le_refl _

/-- What an action forwards leaves the storing worker or the reload. -/
theorem Generation.Acts.count_forwarded {w : World} {g : Generation} {a : Action} {c : Change}
    (h : g.Acts w a c) (k : Nat) :
    ((c.seen.filterMap parcel?).map (·.ticket)).count k +
        (c.generation.storing.consigned.map (·.ticket)).count k +
          (c.generation.reload.ahead.map (·.1)).count k ≤
      (g.storing.consigned.map (·.ticket)).count k + (g.reload.ahead.map (·.1)).count k +
        ((c.seen.filterMap consigned?).map (·.ticket)).count k := by
  cases h with
  | storeFails s call holding somebody =>
    simp [holding, parcel?, consigned?, List.filterMap_cons, somebody]
    omega
  | storeWorks s record db holding somebody written =>
    obtain ⟨rfl, -⟩ := Store.write_eq_ok written
    simp [holding, parcel?, consigned?, List.filterMap_cons, Function.comp_def,
      Store.distinctByUri_ne_nil somebody]
    omega
  | forward s targets written p parcel storing waits =>
    have hconsigned : storing.consigned = [] := by
      rw [waits]
      split <;> rfl
    simp [written, hconsigned, parcel, Parcel.track, parcel?, consigned?, List.filterMap_cons]
  | reload ticket record rest next p parcel =>
    have hrest : ((g.toReload rest).map (·.1)).count k ≤ (rest.map (·.1)).count k := by
      rw [Generation.toReload]
      split
      · exact Nat.le_refl _
      · exact Nat.zero_le _
    simp [next, parcel, Parcel.track, parcel?, consigned?, List.filterMap_cons, List.count_cons]
    omega
  | enter who p rest first isOpen =>
    have hahead := ({ g with waiting := rest, outbox := g.outbox.push p }
      : Generation).count_ahead_release who k
    simpa using hahead
  | enterClosed who p rest first isClosed =>
    have hahead := ({ g with waiting := rest } : Generation).count_ahead_release who k
    simpa using hahead
  | cancel condemned waits => simp
  | _ =>
    simp_all [parcel?, consigned?, Function.comp_def, List.filterMap_cons, abortSending]

theorem forwardedOnce_invariant :
    LocalInvariant (fun _ ↦ True) (fun _ _ _ ↦ True) (fun _ g tr ↦ ForwardedOnce g tr) where
  start first settings records := by
    intro k
    simp [newGeneration, reloadSeen, parcel?, consigned?, reloaded?, List.filterMap_reverse,
      Function.comp_def]
  later _ h := h
  refuse m targets closed _ ih := by
    simpa [ForwardedOnce, parcel?, consigned?, reloaded?, List.filterMap_cons] using ih
  call m targets isOpen inUse _ ih := by
    simpa [ForwardedOnce, parcel?, consigned?, reloaded?, List.filterMap_cons] using ih
  act := by
    intro w g tr a c _ hacts _ ih k
    have hstep := hacts.count_forwarded k
    have hk := ih k
    rw [reloaded?_seen hacts, count_map_seen, count_map_seen]
    omega

/-! ### The moment at which a parcel was put together -/

/-- The parcel `p` of the generation `n` was put together in the world `v`, on the way to `w`. -/
def PutTogether (initial v w : World) (n : Nat) (p : Parcel) : Prop :=
  ∃ g a c, Moment (fun _ _ ↦ True) initial v w n g a c ∧ .forwarded p ∈ c.seen

section Reached

variable {d : Directory} {db : Store.Database} {v w : World} {n : Nat} {g : Generation}
  {p q : Parcel}

theorem traced (hr : Reachable (initial d db) w) (hg : w.generations[n]? = some g) :
    Traced g (w.traceOf n) :=
  traced_invariant.of_reaches (fun _ ↦ trivial) (fun _ _ _ _ ↦ trivial) hr hg

/-- A ticket is forwarded once at most. -/
theorem forwardedParcels_nodup (hr : Reachable (initial d db) w)
    (hg : w.generations[n]? = some g) :
    (((w.traceOf n).filterMap parcel?).map (·.ticket)).Nodup := by
  refine List.nodup_iff_count_le_one.2 fun k ↦ ?_
  have honce := forwardedOnce_invariant.of_reaches (fun _ ↦ trivial) (fun _ _ _ _ ↦ trivial) hr hg k
  have hissued := List.nodup_iff_count_le_one.1 (traceOf_issued_nodup hr n) k
  rw [count_issued] at hissued
  have hcalls := calls_accounted hr hg k
  -- what goes to somebody was accepted
  have hconsigned : (((w.traceOf n).filterMap consigned?).map (·.ticket)).count k ≤
      (((w.traceOf n).filterMap accepted?).map (·.ticket)).count k := by
    have hsublist := ((consigned_sublist (w.traceOf n)).trans
      ((in_line hr hg).processed.sublist.map _)).map Prod.fst
    rw [List.map_map, List.map_map, history, history, List.filterMap_reverse,
      List.filterMap_reverse, List.map_reverse, List.map_reverse] at hsublist
    have hcount := hsublist.count_le k
    rw [List.count_reverse, List.count_reverse] at hcount
    exact hcount
  omega

theorem eq_of_forwarded (hr : Reachable (initial d db) w) (hg : w.generations[n]? = some g)
    (hp : .forwarded p ∈ w.traceOf n) (hq : .forwarded q ∈ w.traceOf n)
    (hticket : p.ticket = q.ticket) : p = q :=
  List.inj_on_of_nodup_map (forwardedParcels_nodup hr hg) (List.mem_filterMap.2 ⟨_, hp, rfl⟩)
    (List.mem_filterMap.2 ⟨_, hq, rfl⟩) hticket

/-- Whatever was forwarded was put together at some moment. -/
theorem exists_putTogether (hr : Reachable (initial d db) w) (hp : .forwarded p ∈ w.traceOf n) :
    ∃ v, PutTogether (initial d db) v w n p :=
  exists_moment_of_mem hr hp rfl

theorem PutTogether.mem_trace (h : PutTogether (initial d db) v w n p) :
    .forwarded p ∈ w.traceOf n := by
  obtain ⟨g, a, c, hmoment, hp⟩ := h
  exact hmoment.mem_trace hp

/-- The notes of a parcel are those of the directory at that moment. -/
theorem PutTogether.wasKnown (h : PutTogether (initial d db) v w n p) {i : Instance}
    (hi : i ∈ p.targets) : p.wasKnown i.uri = v.directory.contains i.uri := by
  obtain ⟨g, a, c, hmoment, hp⟩ := h
  obtain ⟨k, m, targets, rfl⟩ := hmoment.acts.track_of_forwarded hp
  exact Parcel.wasKnown_track v.directory k m hi

/-- Whatever is under way comes from what was put together under its ticket. -/
theorem comesFrom_of_carried (hr : Reachable (initial d db) w) (hg : w.generations[n]? = some g)
    (hq : q ∈ g.carried) (hp : PutTogether (initial d db) v w n p) (hticket : q.ticket = p.ticket) :
    q.ComesFrom p := by
  obtain ⟨p', hp', hfrom⟩ := (traced hr hg).origin q hq
  obtain rfl := eq_of_forwarded hr hg hp.mem_trace hp' (hticket.symm.trans hfrom.ticket)
  exact hfrom

/-! ### The end of a failed call -/

/-- What becomes of a failed call of a peer. It is looked up, and `drops` decides whether it is
given up then. Who is given up is taken off the message, and no retry is left; else the message is
put back, which leaves one more retry, for this peer alone. -/
structure Settles (w : World) (n : Nat) (g : Generation) (p : Parcel) (ahead : List Instance)
    (i : Instance) (drops : Prop) : Prop where
  lookUp : g.tour = some ⟨p, ahead, .failed i⟩ → ∃ w' g',
    w.move (.act n .lookUp) = some w' ∧ w'.generations[n]? = some g' ∧ g'.parcels = g.parcels ∧
      (drops → g'.tour = some ⟨p, ahead, .leaving i⟩ ∧
        w'.traceOf n = .dropped p.ticket p.message i :: w.traceOf n) ∧
      (¬ drops → g'.tour = some ⟨p, ahead, .retrying i⟩ ∧ w'.traceOf n = w.traceOf n)
  forget : g.tour = some ⟨p, ahead, .leaving i⟩ → ∀ removal, ∃ w' g' done,
    w.move (.act n (.forget removal)) = some w' ∧ w'.generations[n]? = some g' ∧
      w'.traceOf n = .remove p.ticket p.message i done :: w.traceOf n ∧
      (removal ≠ .crashes → g'.tour = Tour.next ⟨p, ahead, .leaving i⟩ ∧ g'.parcels = g.parcels)
  putBack : g.tour = some ⟨p, ahead, .retrying i⟩ → ∃ w' g',
    w.move (.act n .putBack) = some w' ∧ w'.generations[n]? = some g' ∧
      w'.traceOf n = w.traceOf n ∧ g'.tour = Tour.next ⟨p, ahead, .retrying i⟩ ∧
      g'.parcels.Perm (p.retry i :: g.parcels)

/-- A tour goes on: what is done then, and what is seen. -/
theorem exists_acts_of_goesOn {t : Tour} {a : Action} (hg : w.generations[n]? = some g)
    (touring : g.tour = some t) (goesOn : t.leg.goesOn a = true) :
    ∃ w' c, g.Acts w a c ∧ w.move (.act n a) = some w' ∧ w'.generations[n]? = some c.generation ∧
      w'.traceOf n = c.seen.reverse ++ w.traceOf n := by
  have hsome := Generation.isSome_goesOn (w := w) touring goesOn
  rw [← Generation.isSome_move hg] at hsome
  obtain ⟨w', hmove⟩ := Option.isSome_iff_exists.1 hsome
  cases moves_of_move hmove with
  | act _ g₁ _ c at_n acts =>
    obtain rfl : g = g₁ := Option.some.inj (hg.symm.trans at_n)
    refine ⟨_, c, acts, hmove, List.getElem?_set_self (List.getElem?_eq_some_iff.1 hg).1, ?_⟩
    rw [traceOf, seenOf_append, seenOf_map_self, ← traceOf]

/-- A failed call ends by what the parcel notes and what the directory knows now. -/
theorem settles (hr : Reachable (initial d db) w) (hg : w.generations[n]? = some g) (p : Parcel)
    (ahead : List Instance) (i : Instance) :
    Settles w n g p ahead i (p.wasKnown i.uri = true ∧ w.directory.contains i.uri = false) := by
  constructor
  · intro failed
    obtain ⟨w', c, acts, hmove, hg', htrace⟩ :=
      exists_acts_of_goesOn (a := .lookUp) hg failed rfl
    refine ⟨w', c.generation, hmove, hg', ?_⟩
    cases acts with
    | giveUpPeer p' ahead' i' failed' known unknown =>
      cases failed.symm.trans failed'
      exact ⟨rfl, fun _ ↦ ⟨rfl, htrace⟩, fun hnot ↦ absurd ⟨known, unknown⟩ hnot⟩
    | keepPeer p' ahead' i' failed' kept =>
      cases failed.symm.trans failed'
      exact ⟨rfl, fun hdrops ↦ absurd hdrops kept, fun _ ↦ ⟨rfl, htrace⟩⟩
  · intro leaving removal
    obtain ⟨w', c, acts, hmove, hg', htrace⟩ :=
      exists_acts_of_goesOn (a := .forget removal) hg leaving rfl
    refine ⟨w', c.generation, ?_⟩
    cases acts with
    | forget p' ahead' i' removal leaving' db' done forgets =>
      cases leaving.symm.trans leaving'
      exact ⟨done, hmove, hg', htrace, fun _ ↦ ⟨rfl, rfl⟩⟩
    | forgetCrashes p' ahead' i' leaving' =>
      cases leaving.symm.trans leaving'
      exact ⟨false, hmove, hg', htrace, fun hworks ↦ absurd rfl hworks⟩
  · intro retrying
    obtain ⟨w', c, acts, hmove, hg', htrace⟩ :=
      exists_acts_of_goesOn (a := .putBack) hg retrying rfl
    refine ⟨w', c.generation, hmove, hg', ?_⟩
    -- a tour goes on only while the outbox is open
    have hopen : g.outbox.isOpen = true := by
      by_contra hclosed
      rw [(quiet hr hg).tour (by simpa using hclosed)] at retrying
      cases retrying
    cases acts with
    | putBack p' ahead' i' retrying' =>
      cases retrying.symm.trans retrying'
      exact ⟨htrace, Generation.reinject_tour _ _ _, Generation.parcels_reinject hopen⟩

/-- While no answer is awaited, a tour goes on only by the step that its leg is about. -/
theorem Generation.Acts.tour_or_goesOn {a : Action} {c : Change} {t : Tour} (h : g.Acts w a c)
    (touring : g.tour = some t) (hidle : t.leg.awaited? = none) :
    c.generation.tour = some t ∨ t.leg.goesOn a = true := by
  cases h with
  | take p rest idle first =>
    rw [idle] at touring
    cases touring
  | halt stopped waits =>
    rcases waits with idle | ⟨p, ahead, i, calling⟩
    · rw [idle] at touring
      cases touring
    · cases calling.symm.trans touring
      cases hidle
  | endTour p leg | attempt p target ahead leg | callCrashes p ahead target leg
  | callDelivers p ahead target leg | callFails p ahead target leg | announce p ahead target leg
  | giveUpPeer p ahead target leg | keepPeer p ahead target leg | forget p ahead target removal leg
  | forgetCrashes p ahead target leg | putBack p ahead target leg =>
    cases leg.symm.trans touring
    exact Or.inr rfl
  | _ => exact Or.inl (by simpa using touring)

theorem tour_or_goesOn {w' : World} {m : Move} {t : Tour} (hg : w.generations[n]? = some g)
    (hmove : w.move m = some w') (touring : g.tour = some t) (hidle : t.leg.awaited? = none) :
    (∃ g', w'.generations[n]? = some g' ∧ g'.tour = some t) ∨
      ∃ a, m = .act n a ∧ t.leg.goesOn a = true := by
  obtain ⟨g', seen, hg', -, hfollows⟩ := (moves_of_move hmove).exists_follows hg
  generalize w'.nextTicket = next at hfollows
  cases hfollows with
  | act _ a c acts =>
    rcases acts.tour_or_goesOn touring hidle with hsame | hgoes
    · exact Or.inl ⟨_, hg', hsame⟩
    · exact Or.inr ⟨a, rfl, hgoes⟩
  | _ => exact Or.inl ⟨_, hg', touring⟩

/-- Nothing else gives a peer up. -/
theorem lookUp_of_dropped {w' : World} {m : Move} {k : Nat} {message : Message} {i : Instance}
    (hg : w.generations[n]? = some g) (hmove : w.move m = some w')
    (hdropped : .dropped k message i ∈ w'.traceOf n) :
    .dropped k message i ∈ w.traceOf n ∨ m = .act n .lookUp := by
  obtain ⟨g', seen, -, htrace, hfollows⟩ := (moves_of_move hmove).exists_follows hg
  rw [htrace] at hdropped
  refine (List.mem_append.1 hdropped).symm.imp_right fun hnow ↦ ?_
  generalize w'.nextTicket = next at hfollows
  cases hfollows with
  | act _ a c acts =>
    cases acts with
    | giveUpPeer p ahead target failed known unknown => rfl
    | _ => simp at hnow
  | _ => simp at hnow

/-- **A peer is given up just when it was known as its parcel was put together and is not known as
its failed call is dealt with.** Whatever a generation carries under a ticket was put together at
one moment, by the storing worker or the reload, and its notes on its peers are the directory of
that moment, however often it was retried since. After a failed call the sending worker looks
whether the peer is known, and gives it up, and takes it off the message, if the directory knew it
at that moment and does not know it now; otherwise it leaves one more retry for this peer alone. It
does nothing else before, and nothing else gives a peer up. In between the directory may change in
any way. -/
theorem given_up_iff_unregistered (hr : Reachable (initial d db) w)
    (hg : w.generations[n]? = some g) :
    (∀ q ∈ g.carried, (∃ v p, PutTogether (initial d db) v w n p ∧ q.ticket = p.ticket) ∧
      ∀ v p, PutTogether (initial d db) v w n p → q.ticket = p.ticket →
        ∀ i ∈ q.targets, i ∈ p.targets ∧ q.wasKnown i.uri = v.directory.contains i.uri) ∧
    (∀ q ahead leg i, g.tour = some ⟨q, ahead, leg⟩ → leg.peer? = some i → i ∈ q.targets ∧
      ∀ v p, PutTogether (initial d db) v w n p → q.ticket = p.ticket →
        Settles w n g q ahead i
          (v.directory.contains i.uri = true ∧ w.directory.contains i.uri = false)) ∧
    ∀ m w', w.move m = some w' →
      (∀ t, g.tour = some t → t.leg.awaited? = none →
        (∃ g', w'.generations[n]? = some g' ∧ g'.tour = some t) ∨
          ∃ a, m = .act n a ∧ t.leg.goesOn a = true) ∧
      ∀ k x i, .dropped k x i ∈ w'.traceOf n →
        .dropped k x i ∈ w.traceOf n ∨ m = .act n .lookUp := by
  have hnotes : ∀ q ∈ g.carried, ∀ v p, PutTogether (initial d db) v w n p → q.ticket = p.ticket →
      ∀ i ∈ q.targets, i ∈ p.targets ∧ q.wasKnown i.uri = v.directory.contains i.uri := by
    intro q hq v p hp hticket i hi
    have hfrom := comesFrom_of_carried hr hg hq hp hticket
    exact ⟨hfrom.targets hi, (hfrom.known i hi).trans (hp.wasKnown (hfrom.targets hi))⟩
  refine ⟨fun q hq ↦ ⟨?_, hnotes q hq⟩, fun q ahead leg i touring hpeer ↦ ?_, fun m w' hmove ↦
    ⟨fun t touring hidle ↦ tour_or_goesOn hg hmove touring hidle,
      fun k x i hdropped ↦ lookUp_of_dropped hg hmove hdropped⟩⟩
  · obtain ⟨p, hp, hfrom⟩ := (traced hr hg).origin q hq
    obtain ⟨v, hv⟩ := exists_putTogether hr hp
    exact ⟨v, p, hv, hfrom.ticket⟩
  · have hi : i ∈ q.targets := (traced hr hg).course _ touring (by simp [hpeer])
    refine ⟨hi, fun v p hp hticket ↦ ?_⟩
    rw [← (hnotes _ (Generation.mem_carried_of_tour touring) v p hp hticket i hi).2]
    exact settles hr hg q ahead i

end Reached

/-- A known peer is removed and added back before its failed call is dealt with, so that it is
called again. Its second call fails, and it is removed for good. -/
def removedMoves : List Move :=
  let known : Instance := ⟨"a", "http://a"⟩
  [.start { retryDelay := 0 } .works,
    .submit 0 { (default : Message) with id := "1" } [known, ⟨"b", "http://b"⟩],
    .act 0 (.arrive 0), .act 0 .accept, .act 0 .receive, .act 0 (.store .works), .act 0 .forward,
    .act 0 .take, .act 0 .attempt, .unregister "http://a", .act 0 (.answer .fails), .register known,
    .act 0 .lookUp, .act 0 .putBack, .act 0 .attempt, .act 0 (.answer .delivers), .act 0 .announce,
    .act 0 (.forget .works), .act 0 .take, .act 0 .attempt, .act 0 (.answer .fails),
    .unregister "http://a"]

theorem given_up_iff_unregistered_of_removed :
    ∃ w g q v p, Reachable (initial ⟨[⟨"a", "http://a"⟩]⟩ .fresh) w ∧
      w.generations[0]? = some g ∧ g.tour = some ⟨q, [], .failed ⟨"a", "http://a"⟩⟩ ∧
      q.failures = 1 ∧ PutTogether (initial ⟨[⟨"a", "http://a"⟩]⟩ .fresh) v w 0 p ∧
      v.directory.contains "http://a" = true ∧ w.directory.contains "http://a" = false ∧
      ∃ w' g', w.move (.act 0 .lookUp) = some w' ∧ w'.generations[0]? = some g' ∧
        g'.parcels = g.parcels ∧ g'.tour = some ⟨q, [], .leaving ⟨"a", "http://a"⟩⟩ := by
  have hrun : ((initial ⟨[⟨"a", "http://a"⟩]⟩ .fresh).run (fun _ _ ↦ True) removedMoves).any
      (fun w ↦ w.generations[0]?.any fun g ↦ g.tour.any (fun t ↦
        t.leg = .failed ⟨"a", "http://a"⟩ ∧ t.ahead = [] ∧ t.parcel.failures = 1 ∧
          t.parcel.wasKnown "http://a" = true) ∧ w.directory.contains "http://a" = false) =
        true := by
    decide +kernel
  obtain ⟨w, g, hr, hg, htest⟩ := exists_of_run hrun
  obtain ⟨htour, hremoved⟩ := of_decide_eq_true htest
  obtain ⟨⟨q, ahead, leg⟩, touring, ht⟩ := (Option.any_eq_true _ _).1 htour
  obtain ⟨rfl, rfl, hfailures, hnoted⟩ := of_decide_eq_true ht
  obtain ⟨hcarried, hfails, -⟩ := given_up_iff_unregistered hr hg
  obtain ⟨⟨v, p, hp, hticket⟩, hnotes⟩ := hcarried _ (Generation.mem_carried_of_tour touring)
  obtain ⟨hi, hsettles⟩ := hfails q _ _ _ touring rfl
  have hknown := (hnotes v p hp hticket _ hi).2.symm.trans hnoted
  obtain ⟨w', g', hmove, hg', hparcels, hdrops, -⟩ := (hsettles v p hp hticket).lookUp touring
  exact ⟨w, g, q, v, p, hr, hg, touring, hfailures, hp, hknown, hremoved, w', g', hmove, hg',
    hparcels, (hdrops ⟨hknown, hremoved⟩).1⟩

end PeerRelay.Delivery
