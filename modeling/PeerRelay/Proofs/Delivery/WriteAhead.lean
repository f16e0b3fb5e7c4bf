import PeerRelay.Proofs.Delivery.Tracking
import PeerRelay.Proofs.Delivery.Visits

/-!
# Stored before it is sent, and taken off after it was

Each observation goes back to a moment (`exists_moment`), so what precedes it in the trace can be
read off the world of that moment. A call is for a duty, which arose when the storing worker had
asked the store to write the message or when the record was loaded (`written_or_reloaded`). What is
announced as stored is what was written, peer by peer (`stored_eq`), and a submission is written
once at most, so that all of it is announced before the first call (`stored_before_attempt`).

Taking a peer off belongs to the call that it follows, as the history of the sending worker says.
Whether the store does it changes the store and nothing else, and what was taken off is not owed any
more (`removals_lt_due`).
-/

namespace PeerRelay.Delivery

open Observation World

namespace Observation

/-- The ticket of what was settled. -/
def settledTicket? (o : Observation) : Option Nat :=
  o.settled?.map Prod.fst

/-- For which peer which message was announced as stored under a ticket. -/
def stored? (k : Nat) : Observation → Option (Message × Instance)
  | .stored ticket m target => if ticket = k then some (m, target) else none
  | _ => none

/-- Which message was written for which peers under a ticket. -/
def wrote? (k : Nat) : Observation → Option (Message × List Instance)
  | .write ticket m targets true => if ticket = k then some (m, targets) else none
  | _ => none

/-- The duty whose peer was to be taken off a message. -/
def removed? : Observation → Option Duty
  | .remove ticket m target _ => some ⟨ticket, m, target⟩
  | _ => none

end Observation

/-- What is announced of a written message: each URI once, in the order of the peers. -/
def announced (x : Message × List Instance) : List (Message × Instance) :=
  (distinctByUri x.2).map (x.1, ·)

/-- The peers to whom a message goes on that was to be written for some; `done` says whether it
was. -/
def onward (recipients : List Instance) (done : Bool) : List Instance :=
  if done then distinctByUri recipients else recipients

theorem onward_subset (recipients : List Instance) (done : Bool) :
    onward recipients done ⊆ recipients := by
  cases done with
  | false => exact List.Subset.refl _
  | true => exact (Store.distinctByUri_sublist recipients).subset

/-- The duty of the peer that is yet to be taken off. -/
def Tour.toTakeOff (t : Tour) : List Duty :=
  owe t.parcel.ticket t.parcel.message t.leg.finished?.toList

namespace Generation

variable {w : World} {g : Generation} {a : Action} {c : Change}

/-- What is announced as stored is what was written. -/
theorem Acts.stored (h : g.Acts w a c) (k : Nat) :
    c.seen.filterMap (stored? k) = (c.seen.filterMap (wrote? k)).flatMap announced := by
  cases h with
  | storeWorks s record db holding somebody written =>
    obtain ⟨rfl, -⟩ := Store.write_eq_ok written
    by_cases hk : s.ticket = k
    · simp [stored?, wrote?, announced, List.filterMap_cons, Function.comp_def, hk]
    · simp [stored?, wrote?, List.filterMap_cons, Function.comp_def, hk]
  | _ => simp [stored?, wrote?, List.filterMap_cons, Function.comp_def]

/-- A write that is done is the first thing seen of its action. -/
theorem Acts.first_of_write (h : g.Acts w a c) {k : Nat} {m : Message} {targets : List Instance}
    {earlier later : List Observation}
    (hseen : c.seen = earlier ++ .write k m targets true :: later) : earlier = [] := by
  cases earlier with
  | nil => rfl
  | cons o earlier =>
    have hmem : .write k m targets true ∈ c.seen.tail := by
      rw [hseen]
      exact List.mem_append_right _ List.mem_cons_self
    cases h with
    | drop inUse free => exact absurd (List.mem_of_mem_tail hmem) (by simp)
    | _ => simp at hmem

/-- What is processed for somebody was to be written, and goes on as the write went. -/
theorem Acts.write_of_processed (h : g.Acts w a c) {s : Submission} {targets : List Instance}
    (hs : .processed s targets ∈ c.seen) (somebody : targets ≠ []) :
    ∃ recipients done, .write s.ticket s.message recipients done ∈ c.seen ∧
      targets = onward recipients done := by
  cases h with
  | storeForNobody s' call holding nobody =>
    obtain ⟨rfl, rfl⟩ := Observation.processed.inj (List.mem_singleton.1 hs)
    contradiction
  | storeFails s' call holding _ =>
    simp only [List.mem_cons, List.not_mem_nil, or_false, reduceCtorEq, false_or] at hs
    obtain ⟨rfl, rfl⟩ := Observation.processed.inj hs
    exact ⟨_, false, List.mem_cons_self, rfl⟩
  | storeWorks s' record db holding _ written =>
    obtain ⟨rfl, -⟩ := Store.write_eq_ok written
    simp at hs
    obtain ⟨rfl, rfl⟩ := hs
    exact ⟨_, true, List.mem_cons_self, rfl⟩
  | _ => simp at hs

/-- The duty of a peer that is yet to be taken off. -/
def toTakeOff (g : Generation) : List Duty :=
  g.tour.toList.flatMap Tour.toTakeOff

theorem toTakeOff_next (t : Tour) : t.next.toList.flatMap Tour.toTakeOff = [] :=
  t.flatMap_next (fun _ ↦ rfl) rfl

/-- A peer that took the message or is given up is to be taken off, and nobody else is. -/
theorem Acts.removed (h : g.Acts w a c) (x : Duty) :
    (c.seen.filterMap removed?).count x + c.generation.toTakeOff.count x =
      g.toTakeOff.count x + (c.seen.filterMap delivered?).count x +
        (c.seen.filterMap dropped?).count x := by
  cases h with
  | forget p ahead target removal leaving db done forgets =>
    simp [toTakeOff, toTakeOff_next, leaving, Tour.toTakeOff, Leg.finished?, removed?, delivered?,
      dropped?, List.filterMap_cons]
  | putBack p ahead target retrying =>
    simp [toTakeOff, toTakeOff_next, retrying, Tour.toTakeOff, Leg.finished?]
  | halt stopped waits =>
    rcases waits with idle | ⟨p, ahead, target, calling⟩
    · simp [toTakeOff, abortSending, idle]
    · simp [toTakeOff, abortSending, calling, Tour.toTakeOff, Leg.finished?]
  | _ =>
    simp_all [toTakeOff, abortSending, Tour.toTakeOff, Leg.finished?, removed?, delivered?,
      dropped?, List.filterMap_cons, Function.comp_def]

/-- Whether the store takes a peer off makes no difference to a generation. -/
theorem forget_generation (g : Generation) (db : Store.Database) {removal : StoreCall}
    (hgoes : removal ≠ .crashes) :
    (g.forget db removal).map (·.generation) =
      (g.forget db .works).map (·.generation) := by
  cases removal with
  | works => rfl
  | crashes => exact absurd rfl hgoes
  | fails =>
    simp only [forget]
    split
    · split <;> rfl
    · rfl

end Generation

/-- Whether the store takes a peer off makes no difference, but to the store and to what is seen. -/
theorem forget_eq_of_removal (w : World) (n : Nat) {removal : StoreCall}
    (hgoes : removal ≠ .crashes) :
    (w.move (.act n (.forget removal))).map (fun v ↦ { v with db := w.db, trace := w.trace }) =
      (w.move (.act n (.forget .works))).map (fun v ↦ { v with db := w.db, trace := w.trace }) := by
  have hmap : ∀ r, (w.move (.act n (.forget r))).map
      (fun v ↦ { v with db := w.db, trace := w.trace }) =
        (w.generations[n]?.bind fun g ↦ (g.forget w.db r).map (·.generation)).map
          fun g ↦ { w with generations := w.generations.set n g } := by
    intro r
    simp only [World.move, World.act]
    cases w.generations[n]? with
    | none => rfl
    | some g => simp [Generation.act, Function.comp_def]
  rw [hmap, hmap]
  refine congrArg (Option.map _) (congrArg _ (funext fun g ↦ ?_))
  exact g.forget_generation w.db hgoes

/-! ### Over a run -/

/-- What is announced as stored is what was written, in the same order. -/
theorem storedAsWritten_invariant :
    LocalInvariant (fun _ ↦ True) (fun _ _ _ ↦ True) (fun _ _ tr ↦ ∀ k,
      history (stored? k) tr = (history (wrote? k) tr).flatMap announced) where
  start first settings records := by
    intro k
    simp [history, reloadSeen, stored?, wrote?, Function.comp_def]
  later _ h := h
  refuse m targets closed _ ih := by simpa [stored?, wrote?] using ih
  call m targets isOpen inUse _ ih := by simpa [stored?, wrote?] using ih
  act := by
    intro w g tr a c _ hacts _ ih k
    rw [history_seen, history_seen, ih k, hacts.stored k, List.flatMap_append]

theorem removedAsFinished_invariant :
    LocalInvariant (fun _ ↦ True) (fun _ _ _ ↦ True) (fun _ g tr ↦ ∀ x,
      (tr.filterMap removed?).count x + g.toTakeOff.count x =
        (tr.filterMap delivered?).count x + (tr.filterMap dropped?).count x) where
  start first settings records := by
    intro x
    simp [Generation.toTakeOff, newGeneration, reloadSeen, removed?, delivered?, dropped?,
      List.filterMap_reverse, Function.comp_def]
  later _ h := h
  refuse m targets closed _ ih := by
    simpa [removed?, delivered?, dropped?, List.filterMap_cons] using ih
  call m targets isOpen inUse _ ih := by
    simpa [Generation.toTakeOff, removed?, delivered?, dropped?, List.filterMap_cons] using ih
  act := by
    intro w g tr a c _ hacts _ ih x
    have hstep := hacts.removed x
    have hx := ih x
    rw [count_filterMap_seen, count_filterMap_seen, count_filterMap_seen]
    omega

section Reached

variable {d : Directory} {db : Store.Database} {w : World} {n : Nat} {g : Generation} {k f : Nat}
  {m : Message} {i : Instance} {after before : List Observation}

/-- A submission is settled once at most. -/
theorem settledTickets_nodup (hr : Reachable (initial d db) w) (hg : w.generations[n]? = some g) :
    ((w.traceOf n).filterMap settledTicket?).Nodup := by
  obtain ⟨keys, hperm, hsublist⟩ := (held_accounted hr hg).settled_subperm
  have haccepted := List.nodup_iff_count_le_one.2 (count_accepted_le hr hg)
  have htickets := hsublist.map Prod.fst
  rw [List.map_map] at htickets
  have hsettled := (hperm.map Prod.fst).nodup_iff.1 (haccepted.sublist htickets)
  rwa [List.map_filterMap] at hsettled

/-- A call is for a duty that is pending, and what was seen before it is what was seen in the world
in which it was made. -/
theorem moment_of_attempt (hr : Reachable (initial d db) w)
    (htrace : w.traceOf n = after ++ .attempt k m i f :: before) :
    ∃ u g, Reachable (initial d db) u ∧ u.generations[n]? = some g ∧ u.traceOf n = before ∧
      ⟨k, m, i⟩ ∈ g.pending := by
  obtain ⟨u, g, a, c, hmoment, earlier, later, hseen, rfl⟩ := exists_moment hr htrace rfl
  have hmem : .attempt k m i f ∈ c.seen := hseen ▸ List.mem_append_right _ List.mem_cons_self
  rcases hmoment.acts.attempt_cases with hnone | ⟨p, target, ahead, next, hattempt⟩
  · exact absurd hmem (hnone k m i f)
  · -- the call is all that is seen of its action
    rw [hattempt] at hmem hseen
    obtain ⟨rfl, rfl, rfl, rfl⟩ := Observation.attempt.inj (List.mem_singleton.1 hmem)
    obtain ⟨rfl, -⟩ : earlier = [] ∧ later = [] := by
      simpa [List.singleton_eq_append_iff] using hseen
    exact ⟨u, g, hmoment.reached, hmoment.generation, rfl, g.mem_pending_of_next next⟩

/-- What was processed for somebody was to be written before, and goes on as the write went. -/
theorem write_of_processed (hr : Reachable (initial d db) w) {s : Submission}
    {targets : List Instance} (hs : .processed s targets ∈ w.traceOf n) (somebody : targets ≠ []) :
    ∃ recipients done, .write s.ticket s.message recipients done ∈ w.traceOf n ∧
      targets = onward recipients done := by
  obtain ⟨u, g, a, c, hmoment, hmem⟩ := exists_moment_of_mem hr hs rfl
  obtain ⟨recipients, done, hwrite, honward⟩ := hmoment.acts.write_of_processed hmem somebody
  exact ⟨recipients, done, hmoment.mem_trace hwrite, honward⟩

/-- Before a peer is called the store was asked to write the message for it, or the record was
loaded. -/
theorem written_or_reloaded (hr : Reachable (initial d db) w)
    (htrace : w.traceOf n = after ++ .attempt k m i f :: before) :
    (∃ recipients done, .write k m recipients done ∈ before ∧ i ∈ recipients) ∨
      ∃ record, .reloaded k record ∈ before ∧ record.message = m ∧ i ∈ record.targets := by
  obtain ⟨u, g, hu, hg, rfl, hpending⟩ := moment_of_attempt hr htrace
  rcases mem_due ((owed hu hg).mem_due hpending) with ⟨s, targets, hs, hkey, hi⟩ | hreloaded
  · obtain ⟨recipients, done, hwrite, rfl⟩ := write_of_processed hu hs (List.ne_nil_of_mem hi)
    obtain ⟨rfl, rfl⟩ := Prod.mk.inj hkey
    exact Or.inl ⟨recipients, done, hwrite, onward_subset recipients done hi⟩
  · exact Or.inr hreloaded

/-- What is written under a ticket is settled under it. -/
theorem length_wrote_le (k : Nat) (tr : List Observation) :
    (tr.filterMap (wrote? k)).length ≤ (tr.filterMap settledTicket?).count k := by
  induction tr with
  | nil => exact Nat.le_refl _
  | cons o tr ih =>
    cases hwrote : wrote? k o with
    | none =>
      rw [List.filterMap_cons_none hwrote]
      refine Nat.le_trans ih (List.Sublist.count_le k ?_)
      exact (List.sublist_cons_self o tr).filterMap _
    | some x =>
      have hsettled : settledTicket? o = some k := by
        cases o with
        | write ticket m targets done =>
          cases done with
          | false => cases hwrote
          | true =>
            rw [wrote?] at hwrote
            split at hwrote
            · rename_i hticket
              exact congrArg some hticket
            · cases hwrote
        | _ => cases hwrote
      rw [List.filterMap_cons_some hwrote, List.filterMap_cons_some hsettled, List.length_cons,
        List.count_cons_self]
      omega

/-- A submission is written once at most. -/
theorem wrote_eq {targets : List Instance} (hr : Reachable (initial d db) w)
    (hg : w.generations[n]? = some g) (hwrite : .write k m targets true ∈ w.traceOf n) :
    history (wrote? k) (w.traceOf n) = [(m, targets)] := by
  have hmem : (m, targets) ∈ history (wrote? k) (w.traceOf n) :=
    mem_history.2 ⟨_, hwrite, if_pos rfl⟩
  have hlength := length_wrote_le k (w.traceOf n)
  have hone := List.nodup_iff_count_le_one.1 (settledTickets_nodup hr hg) k
  rw [history, List.filterMap_reverse] at hmem ⊢
  rw [← List.length_reverse] at hlength
  obtain ⟨x, hx⟩ := List.length_eq_one_iff.1
    (Nat.le_antisymm (Nat.le_trans hlength hone) (List.length_pos_of_mem hmem))
  rw [hx] at hmem ⊢
  rw [List.mem_singleton.1 hmem]

/-- What was written is announced, each URI once and in the order of the peers. -/
theorem stored_eq {targets : List Instance} (hr : Reachable (initial d db) w)
    (hg : w.generations[n]? = some g) (hwrite : .write k m targets true ∈ w.traceOf n) :
    history (stored? k) (w.traceOf n) = announced (m, targets) := by
  have hstored := storedAsWritten_invariant.of_reaches (fun _ ↦ trivial) (fun _ _ _ _ ↦ trivial)
    hr hg k
  rw [hstored, wrote_eq hr hg hwrite, List.flatMap_singleton]

/-- It is announced after the write, and nothing before. -/
theorem stored_after_write {targets : List Instance} (hr : Reachable (initial d db) w)
    (hg : w.generations[n]? = some g)
    (htrace : w.traceOf n = after ++ .write k m targets true :: before) :
    history (stored? k) before = [] ∧ history (stored? k) after = announced (m, targets) := by
  have hwrite : .write k m targets true ∈ w.traceOf n := by
    rw [htrace]
    exact List.mem_append_right _ List.mem_cons_self
  have hbefore : history (stored? k) before = [] := by
    obtain ⟨u, g', a, c, hmoment, earlier, later, hseen, rfl⟩ := exists_moment hr htrace rfl
    obtain rfl : earlier = [] := hmoment.acts.first_of_write hseen
    rw [List.reverse_nil, List.nil_append] at htrace ⊢
    -- the write is the only one under its ticket
    have hwrote : history (wrote? k) (u.traceOf n) = [] := by
      have hone := wrote_eq hr hg hwrite
      have hthis : wrote? k (.write k m targets true) = some (m, targets) := if_pos rfl
      rw [htrace, history_append, history_cons, hthis] at hone
      have hlength := congrArg List.length hone
      simp only [List.length_append, Option.toList_some, List.length_singleton] at hlength
      exact List.length_eq_zero_iff.1 (by omega)
    have hstored := storedAsWritten_invariant.of_reaches (fun _ ↦ trivial) (fun _ _ _ _ ↦ trivial)
      hmoment.reached hmoment.generation k
    rw [hstored, hwrote]
    rfl
  have hall := stored_eq hr hg hwrite
  rw [htrace, history_append, history_cons, hbefore] at hall
  exact ⟨hbefore, by simpa [stored?] using hall⟩

/-- All of it is announced before the first call. -/
theorem stored_before_attempt {m' : Message} {targets : List Instance}
    (hr : Reachable (initial d db) w) (hg : w.generations[n]? = some g)
    (hwrite : .write k m targets true ∈ w.traceOf n)
    (htrace : w.traceOf n = after ++ .attempt k m' i f :: before) :
    history (stored? k) before = announced (m, targets) := by
  have hbefore : before ⊆ w.traceOf n := by
    rw [htrace]
    exact fun o ho ↦ List.mem_append_right _ (List.mem_cons_of_mem _ ho)
  rcases written_or_reloaded hr htrace with
    ⟨recipients, done, hwrite', -⟩ | ⟨record, hrecord, -⟩
  · -- it is the write that is known to precede the call
    have hsame := eq_of_filterMap_nodup (settledTickets_nodup hr hg) (hbefore hwrite') hwrite
      rfl rfl
    rw [hsame] at hwrite'
    obtain ⟨u, g', hu, hg', rfl, -⟩ := moment_of_attempt hr htrace
    exact stored_eq hu hg' hwrite'
  · exact absurd (mem_traceOf.1 hwrite)
      (not_written_of_reloaded hr (mem_traceOf.1 (hbefore hrecord)))

/-- Who is called was not taken off as often as the message was owed. -/
theorem removals_lt_due (hr : Reachable (initial d db) w)
    (htrace : w.traceOf n = after ++ .attempt k m i f :: before) :
    (before.filterMap removed?).count ⟨k, m, i⟩ < (before.flatMap due).count ⟨k, m, i⟩ := by
  obtain ⟨u, g, hu, hg, rfl, hpending⟩ := moment_of_attempt hr htrace
  have hle := (owed hu hg).le ⟨k, m, i⟩
  have hpos := List.count_pos_iff.2 hpending
  have hremoved := removedAsFinished_invariant.of_reaches (fun _ ↦ trivial)
    (fun _ _ _ _ ↦ trivial) hu hg ⟨k, m, i⟩
  omega

/-- A peer that was given up was known when its parcel was put together, and unknown when its failed
call was dealt with, which is the last that was seen of the sending worker before. -/
theorem moment_of_dropped (hr : Reachable (initial d db) w)
    (htrace : w.traceOf n = after ++ .dropped k m i :: before) :
    ∃ u v p f, Reachable (initial d db) u ∧ before = u.traceOf n ∧
      [.attempt k m i f, .answered k m i false] <:+ sendingHistory before ∧
      PutTogether (initial d db) v u n p ∧ p.ticket = k ∧ i ∈ p.targets ∧
      v.directory.contains i.uri = true ∧ u.directory.contains i.uri = false := by
  obtain ⟨u, g, a, c, hmoment, earlier, later, hseen, rfl⟩ := exists_moment hr htrace rfl
  have hmem : .dropped k m i ∈ c.seen := hseen ▸ List.mem_append_right _ List.mem_cons_self
  cases hmoment.acts with
  | giveUpPeer q ahead target failed known unknown =>
    obtain ⟨rfl, rfl, rfl⟩ := Observation.dropped.inj (List.mem_singleton.1 hmem)
    -- that the peer is given up is all that is seen of the action
    obtain ⟨rfl, -⟩ : earlier = [] ∧ later = [] := by
      simpa [List.singleton_eq_append_iff] using hseen
    have htraced := traced hmoment.reached hmoment.generation
    have hi : i ∈ q.targets := htraced.course _ failed List.mem_cons_self
    obtain ⟨p, hp, hfrom⟩ := htraced.origin _ (Generation.mem_carried_of_tour failed)
    obtain ⟨v, hv⟩ := exists_putTogether hmoment.reached hp
    obtain ⟨visits, rest, hhistory, hrest⟩ := visited_of_reaches hmoment.reached hmoment.generation
    refine ⟨u, v, p, q.failures, hmoment.reached, rfl, ?_, hv, hfrom.ticket.symm,
      hfrom.targets hi, ?_, unknown⟩
    · cases (Generation.underway_of_tour failed).1 hrest
      exact ⟨_, hhistory.symm⟩
    · rw [← hv.wasKnown (hfrom.targets hi), ← hfrom.known i hi, known]
  | _ => simp at hmem

/-- **A message is stored before it is sent, and taken off after it was.** Calls of the store and of
the peers may go in any way.

- Before a peer is called, the store was asked to write the message for it, whether or not it did,
  or the record was loaded. If the message was written, all of it was announced before. The peer was
  not taken off as often as the message was owed to it.
- A message that is written is then announced for each URI once, in the order of the peers.
- The sending worker makes one visit to a peer after the other. A peer is taken off once, right
  after a call that it took, with one announcement in between, or right after a call with which it
  is given up, without any. Only the last visit may be unfinished, and of it was seen what the leg
  of the tour says; or the worker ended while it waited for an answer.
- A peer that is given up was known when its parcel was put together and was not as its failed call
  was dealt with.
- Whether the store takes a peer off makes no difference but to the store. -/
theorem written_before_sent (hr : Reachable (initial d db) w) (hg : w.generations[n]? = some g) :
    (∀ after k m i f before, w.traceOf n = after ++ .attempt k m i f :: before →
      ((∃ recipients done, .write k m recipients done ∈ before ∧ i ∈ recipients) ∨
        ∃ record, .reloaded k record ∈ before ∧ record.message = m ∧ i ∈ record.targets) ∧
      (∀ m' targets, .write k m' targets true ∈ w.traceOf n →
        history (stored? k) before = announced (m', targets)) ∧
      (before.filterMap removed?).count ⟨k, m, i⟩ < (before.flatMap due).count ⟨k, m, i⟩) ∧
    (∀ after k m targets before, w.traceOf n = after ++ .write k m targets true :: before →
      history (stored? k) before = [] ∧ history (stored? k) after = announced (m, targets)) ∧
    (∃ (visits : List Visit) (rest : List Observation),
      sendingHistory (w.traceOf n) = visits.flatMap Visit.seen ++ rest ∧ g.Underway rest) ∧
    (∀ after k m i before, w.traceOf n = after ++ .dropped k m i :: before →
      ∃ u v p f, Reachable (initial d db) u ∧ before = u.traceOf n ∧
        [.attempt k m i f, .answered k m i false] <:+ sendingHistory before ∧
        PutTogether (initial d db) v u n p ∧ p.ticket = k ∧ i ∈ p.targets ∧
        v.directory.contains i.uri = true ∧ u.directory.contains i.uri = false) ∧
    ∀ removal, removal ≠ .crashes →
      (w.move (.act n (.forget removal))).map (fun v ↦ { v with db := w.db, trace := w.trace }) =
        (w.move (.act n (.forget .works))).map
          (fun v ↦ { v with db := w.db, trace := w.trace }) :=
  ⟨fun _ _ _ _ _ _ htrace ↦ ⟨written_or_reloaded hr htrace,
      fun _ _ hwrite ↦ stored_before_attempt hr hg hwrite htrace, removals_lt_due hr htrace⟩,
    fun _ _ _ _ _ htrace ↦ stored_after_write hr hg htrace,
    visited_of_reaches hr hg,
    fun _ _ _ _ _ htrace ↦ moment_of_dropped hr htrace,
    fun _ hgoes ↦ forget_eq_of_removal w n hgoes⟩

end Reached

/-- Of two peers the first one takes the message, but is not taken off it. The second one is removed
during its call and given up. -/
def finishedMoves : List Move :=
  [.start {} .works, .submit 0 { (default : Message) with id := "1" } [], .act 0 (.arrive 0),
    .act 0 .accept, .act 0 .receive, .act 0 (.store .works), .act 0 .forward, .act 0 .take,
    .act 0 .attempt, .act 0 (.answer .delivers), .act 0 .announce, .act 0 (.forget .fails),
    .act 0 .attempt, .unregister "http://b", .act 0 (.answer .fails), .act 0 .lookUp,
    .act 0 (.forget .works)]

theorem written_before_sent_of_finished :
    ∃ w g, Reachable (initial ⟨[⟨"a", "http://a"⟩, ⟨"b", "http://b"⟩]⟩ .fresh) w ∧
      w.generations[0]? = some g ∧ (sendingHistory (w.traceOf 0)).length = 8 ∧
      ((w.traceOf 0).filterMap removed?).map (·.target.uri) = ["http://b", "http://a"] ∧
      ∃ (visits : List Visit) (rest : List Observation),
        sendingHistory (w.traceOf 0) = visits.flatMap Visit.seen ++ rest ∧ g.Underway rest := by
  have hrun : ((initial ⟨[⟨"a", "http://a"⟩, ⟨"b", "http://b"⟩]⟩ .fresh).run (fun _ _ ↦ True)
      finishedMoves).any (fun w ↦ w.generations[0]?.any fun _ ↦
        (sendingHistory (w.traceOf 0)).length = 8 ∧
          ((w.traceOf 0).filterMap removed?).map (·.target.uri) = ["http://b", "http://a"]) =
        true := by
    decide +kernel
  obtain ⟨w, g, hr, hg, htest⟩ := exists_of_run hrun
  obtain ⟨hlength, hremoved⟩ := of_decide_eq_true htest
  exact ⟨w, g, hr, hg, hlength, hremoved, (written_before_sent hr hg).2.2.1⟩

end PeerRelay.Delivery
