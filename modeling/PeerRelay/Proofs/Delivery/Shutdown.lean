import PeerRelay.Proofs.Delivery.Visits

/-!
# What a shutdown leaves behind

Three facts about the submissions of a generation, however its calls interleave with a shutdown or
with its being dropped.

When the storing worker has ended by itself, everything that was accepted was settled exactly once
and nothing is left in the intake (`settled_once`). What happens on behalf of a ticket happens only
after the ticket was settled or reloaded, so that nothing ever happens for a call that failed
(`effect_settled`). And a call that is made after a shutdown began is refused.

Tickets are never issued twice, so each of these carries over from one generation to the world with
all its generations.
-/

namespace PeerRelay.Delivery

open Observation World

/-- The ticket on whose behalf the store was asked for something, a peer was called, or an event was
emitted. -/
def Observation.effect? : Observation → Option Nat
  | .write ticket _ _ _ => some ticket
  | .stored ticket _ _ => some ticket
  | .processed s _ => some s.ticket
  | .attempt ticket _ _ _ => some ticket
  | .answered ticket _ _ _ => some ticket
  | .sent ticket _ _ => some ticket
  | .dropped ticket _ _ => some ticket
  | .remove ticket _ _ _ => some ticket
  | _ => none

namespace Generation

variable {w : World} {g : Generation} {a : Action} {c : Change} {o : Observation}

/-- The sending worker acts on behalf of its parcel: it calls a peer to whom it is owed, or deals
with one that was called. -/
theorem Acts.of_sending (h : g.Acts w a c) (ho : o ∈ c.seen) (hsending : o.isSending = true) :
    ∃ p ahead leg, g.tour = some ⟨p, ahead, leg⟩ ∧ o.effect? = some p.ticket ∧
      ((∃ x ∈ g.pending, x.ticket = p.ticket) ∨ ∃ i, leg.peer? = some i) := by
  cases h with
  | attempt p target ahead next =>
    obtain rfl := List.mem_singleton.1 ho
    exact ⟨p, _, _, next, rfl, Or.inl ⟨_, g.mem_pending_of_next next, rfl⟩⟩
  | callDelivers p ahead target calling =>
    obtain rfl := List.mem_singleton.1 ho
    exact ⟨p, ahead, _, calling, rfl, Or.inr ⟨target, rfl⟩⟩
  | callFails p ahead target calling =>
    obtain rfl := List.mem_singleton.1 ho
    exact ⟨p, ahead, _, calling, rfl, Or.inr ⟨target, rfl⟩⟩
  | announce p ahead target taken =>
    obtain rfl := List.mem_singleton.1 ho
    exact ⟨p, ahead, _, taken, rfl, Or.inr ⟨target, rfl⟩⟩
  | giveUpPeer p ahead target failed known unknown =>
    obtain rfl := List.mem_singleton.1 ho
    exact ⟨p, ahead, _, failed, rfl, Or.inr ⟨target, rfl⟩⟩
  | forget p ahead target removal leaving db done forgets =>
    obtain rfl := List.mem_singleton.1 ho
    exact ⟨p, ahead, _, leaving, rfl, Or.inr ⟨target, rfl⟩⟩
  | forgetCrashes p ahead target leaving =>
    obtain rfl := List.mem_singleton.1 ho
    exact ⟨p, ahead, _, leaving, rfl, Or.inr ⟨target, rfl⟩⟩
  | storeFails s call holding somebody =>
    simp only [List.mem_cons, List.not_mem_nil, or_false] at ho
    rcases ho with rfl | rfl <;> cases hsending
  | storeWorks s record db holding somebody written =>
    simp only [List.cons_append, List.mem_cons, List.mem_append, List.mem_map, List.not_mem_nil,
      or_false] at ho
    rcases ho with rfl | ⟨target, -, rfl⟩ | rfl <;> cases hsending
  | drop inUse free =>
    obtain ⟨ticket, -, rfl⟩ := List.mem_map.1 ho
    cases hsending
  | _ => simp_all [isSending]

/-- What else has an effect settles the ticket. -/
theorem Acts.of_storing (h : g.Acts w a c) (ho : o ∈ c.seen) (hsending : o.isSending = false)
    {k : Nat} (hk : o.effect? = some k) : ∃ x ∈ c.seen.filterMap settled?, x.1 = k := by
  cases h with
  | storeForNobody s call holding nobody =>
    obtain rfl := List.mem_singleton.1 ho
    exact ⟨s.key, by simp [settled?], Option.some.inj hk⟩
  | storeCrashes s holding somebody =>
    obtain rfl := List.mem_singleton.1 ho
    exact ⟨s.key, by simp [settled?, Submission.key], Option.some.inj hk⟩
  | storeFails s call holding somebody =>
    refine ⟨s.key, by simp [settled?, Submission.key, List.filterMap_cons], ?_⟩
    simp only [List.mem_cons, List.not_mem_nil, or_false] at ho
    rcases ho with rfl | rfl <;> exact Option.some.inj hk
  | storeWorks s record db holding somebody written =>
    refine ⟨s.key, by simp [settled?, Submission.key, List.filterMap_cons], ?_⟩
    simp only [List.cons_append, List.mem_cons, List.mem_append, List.mem_map, List.not_mem_nil,
      or_false] at ho
    rcases ho with rfl | ⟨target, -, rfl⟩ | rfl <;> exact Option.some.inj hk
  | drop inUse free =>
    obtain ⟨ticket, -, rfl⟩ := List.mem_map.1 ho
    cases hk
  | _ =>
    -- a call that comes or goes, and a parcel that is offered, are no effects
    simp_all [effect?, isSending]

/-- What an action does on behalf of a ticket, it does while it settles the ticket, or the sending
worker does it for its parcel. -/
theorem Acts.effects (h : g.Acts w a c) (ho : o ∈ c.seen) {k : Nat} (hk : o.effect? = some k) :
    (∃ x ∈ c.seen.filterMap settled?, x.1 = k) ∨
      (o.isSending = true ∧ ((∃ x ∈ g.pending, x.ticket = k) ∨
        ∃ p ahead leg i, g.tour = some ⟨p, ahead, leg⟩ ∧ leg.peer? = some i ∧ p.ticket = k)) := by
  cases hsending : o.isSending with
  | false => exact Or.inl (h.of_storing ho hsending hk)
  | true =>
    obtain ⟨p, ahead, leg, touring, heffect, hwith⟩ := h.of_sending ho hsending
    obtain rfl : p.ticket = k := Option.some.inj (heffect.symm.trans hk)
    exact Or.inr ⟨rfl, hwith.imp_right fun ⟨i, hi⟩ ↦ ⟨p, ahead, leg, i, touring, hi, rfl⟩⟩

end Generation

/-- Whatever happened, happened on behalf of a ticket that was settled or reloaded. -/
def EffectsSettled (tr : List Observation) : Prop :=
  ∀ o ∈ tr, ∀ k, o.effect? = some k →
    (∃ x ∈ tr.filterMap settled?, x.1 = k) ∨ k ∈ tr.filterMap reloaded?

theorem EffectsSettled.later {tr : List Observation} (h : EffectsSettled tr)
    (seen : List Observation)
    (hseen : ∀ o ∈ seen, ∀ k, o.effect? = some k →
      (∃ x ∈ (seen ++ tr).filterMap settled?, x.1 = k) ∨ k ∈ (seen ++ tr).filterMap reloaded?) :
    EffectsSettled (seen ++ tr) := by
  intro o ho k hk
  rcases List.mem_append.1 ho with hnow | hbefore
  · exact hseen o hnow k hk
  · simp only [List.filterMap_append, List.mem_append]
    rcases h o hbefore k hk with ⟨x, hx, hxk⟩ | hreloaded
    · exact Or.inl ⟨x, Or.inr hx, hxk⟩
    · exact Or.inr (Or.inr hreloaded)

theorem effectsSettled_invariant :
    LocalInvariant (fun _ ↦ True) (fun _ g tr ↦ Owed g tr ∧ HeldAccounted g tr ∧ Visited g tr)
      (fun _ _ tr ↦ EffectsSettled tr) where
  start first settings records := by
    intro o ho k hk
    rw [List.mem_reverse] at ho
    obtain ⟨r, -, rfl⟩ := List.mem_map.1 ho
    cases hk
  later _ h := h
  refuse m targets closed _ ih := by
    refine ih.later [_, _] fun o ho k hk ↦ ?_
    simp only [List.mem_cons, List.not_mem_nil, or_false] at ho
    rcases ho with rfl | rfl <;> cases hk
  call m targets isOpen inUse _ ih := by
    refine ih.later [_] fun o ho k hk ↦ ?_
    obtain rfl := List.mem_singleton.1 ho
    cases hk
  act := by
    intro w g tr a c _ hacts known ih
    obtain ⟨howed, hheld, hvisited⟩ := known
    refine ih.later _ fun o ho k hk ↦ ?_
    simp only [List.filterMap_append, List.filterMap_reverse, List.mem_append, List.mem_reverse]
    rcases hacts.effects (List.mem_reverse.1 ho) hk with
      ⟨x, hx, hxk⟩ | ⟨-, ⟨x, hx, hxk⟩ | ⟨p, ahead, leg, i, touring, hi, rfl⟩⟩
    · exact Or.inl ⟨x, Or.inl hx, hxk⟩
    · rcases mem_due (howed.mem_due hx) with ⟨s, targets, hprocessed, hkey, -⟩ | ⟨r, hreloaded, -⟩
      · refine Or.inl ⟨s.key, Or.inr (hheld.settled_of_processed hprocessed), ?_⟩
        rw [hkey]
        exact hxk
      · refine Or.inr (Or.inr (List.mem_filterMap.2 ⟨_, hreloaded, ?_⟩))
        rw [← hxk]
        rfl
    · -- the call that the worker is with had its effect before
      rcases ih _ (hvisited.attempt_mem touring hi) p.ticket rfl with ⟨x, hx, hxk⟩ | hreloaded
      · exact Or.inl ⟨x, Or.inr hx, hxk⟩
      · exact Or.inr (Or.inr hreloaded)

section Reached

variable {may : World → Move → Prop} {d : Directory} {db : Store.Database} {w : World} {n : Nat}
  {g : Generation}

theorem effect_settled (hr : Reaches may (initial d db) w) (hg : w.generations[n]? = some g) :
    EffectsSettled (w.traceOf n) :=
  effectsSettled_invariant.of_reaches (fun _ ↦ trivial)
    (fun hv _ _ hg ↦ ⟨owed hv hg, held_accounted hv hg, visited_of_reaches hv hg⟩) hr hg

/-- A storing worker that ended by itself leaves nothing in the intake and settled once whatever was
accepted. -/
theorem settled_once (hr : Reaches may (initial d db) w) (hg : w.generations[n]? = some g)
    (hended : g.storing = .ended) :
    g.intake.entries = [] ∧ ∀ s, (n, .accepted s) ∈ w.trace →
      (w.trace.filterMap (·.2.settled?)).count s.key = 1 := by
  have hempty := ((ending_of_reaches hr hg).empty (Or.inl hended)).2
  refine ⟨hempty, fun s hs ↦ ?_⟩
  have hwhole : ¬ g.storing.brokenOff := by simp [hended, Storing.brokenOff]
  have hheld : g.held = [] := by simp [Generation.held, hempty, hended]
  have hperm := accepted_perm hr hg hwhole
  rw [hheld, List.nil_append] at hperm
  have hkeys := (hperm.map (·.key)).count_eq s.key
  have hprocessed := (held_accounted hr hg).processed hwhole s.key
  have hsettled := (held_accounted hr hg).settled s.key
  have hpos : 0 < (((w.traceOf n).filterMap accepted?).map (·.key)).count s.key :=
    List.count_pos_iff.2 (List.mem_map_of_mem (mem_accepted.2 hs))
  have hle := List.nodup_iff_count_le_one.1 (acceptedKeys_nodup hr hg) s.key
  rw [count_settled hr hs]
  omega

/-- Nothing ever happens on behalf of a call that failed. -/
theorem no_effect_of_failed {k : Nat} {o : Observation} (hr : Reaches may (initial d db) w)
    (ho : (n, o) ∈ w.trace) (hk : o.failed? = some k) :
    ∀ entry ∈ w.trace, entry.2.effect? ≠ some k := by
  rintro ⟨n', o'⟩ ho' hk'
  obtain ⟨g', hg'⟩ := exists_generation hr ho'
  rcases effect_settled hr hg' o' (mem_traceOf.2 ho') k hk' with ⟨x, hx, hxk⟩ | hreloaded
  · -- the ticket would have been accepted although it failed
    obtain ⟨s, hs, hkey⟩ := (held_accounted hr hg').accepted_of_settled hx
    have hsk : s.ticket = k := (congrArg Prod.fst hkey).trans hxk
    exact not_accepted_of_failed hr ho hk n' s (mem_traceOf.1 hs) hsk
  · -- the ticket would be that of a record and that of a call
    obtain ⟨o'', ho'', hk''⟩ := List.mem_filterMap.1 hreloaded
    cases o'' <;> cases hk''
    obtain ⟨c, hc, hck⟩ := called_of_failed hr ho hk
    have hentry := eq_of_issued hr hc (mem_traceOf.1 ho'') (congrArg some hck) rfl
    cases hentry

/-- A call that is made after a shutdown began is never accepted. -/
theorem not_accepted_of_late {before after : List Observation} {s : Submission}
    (hr : Reaches may (initial d db) w) (htr : w.traceOf n = after ++ .called s :: before)
    (hclosing : .closing ∈ before) :
    .refused s.ticket (.shutDown s.message.id) ∈ after ∧
      ∀ n' s', (n', .accepted s') ∈ w.trace → s'.ticket ≠ s.ticket := by
  have hcalled : (n, .called s) ∈ w.trace := by
    rw [← mem_traceOf, htr]
    exact List.mem_append_right _ List.mem_cons_self
  obtain ⟨g, hg⟩ := exists_generation hr hcalled
  have hrefused := late_refused hr hg before s after htr hclosing
  have hmem : .refused s.ticket (.shutDown s.message.id) ∈ w.traceOf n := by
    rw [htr]
    exact List.mem_append_left _ hrefused
  exact ⟨hrefused, not_accepted_of_failed hr (mem_traceOf.1 hmem) rfl⟩

/-- **Every submission is accounted for.** When a shutdown has drained a pipeline, or the storing
worker of a dropped pipeline has ended, each submission that was accepted was settled exactly once
and the intake is empty. Nothing happens, then or later, on behalf of a call that was refused or
given up. And a call that is made after a shutdown began is refused and never accepted. -/
theorem submissions_accounted (hr : Reachable (initial d db) w) :
    (∀ n g, w.generations[n]? = some g →
      .stopped .drained ∈ w.traceOf n ∨ (g.dropped = true ∧ g.storing = .ended) →
      g.intake.entries = [] ∧ ∀ s, (n, .accepted s) ∈ w.trace →
        (w.trace.filterMap (·.2.settled?)).count s.key = 1) ∧
    (∀ w', Reachable w w' → ∀ n o k, (n, o) ∈ w.trace → o.failed? = some k →
      ∀ entry ∈ w'.trace, entry.2.effect? ≠ some k) ∧
    ∀ w', Reachable w w' → ∀ n before after s, w'.traceOf n = after ++ .called s :: before →
      .closing ∈ before →
      .refused s.ticket (.shutDown s.message.id) ∈ after ∧
        ∀ n' s', (n', .accepted s') ∈ w'.trace → s'.ticket ≠ s.ticket := by
  refine ⟨fun n g hg hstopped ↦ ?_, fun w' hr' n o k ho hk ↦ ?_, fun w' hr' n before after s ↦ ?_⟩
  · rcases hstopped with hdrained | ⟨-, hended⟩
    · exact settled_once hr hg ((ending_of_reaches hr hg).drained hdrained)
    · exact settled_once hr hg hended
  · exact no_effect_of_failed (hr.trans hr') (hr'.trace_suffix.subset ho) hk
  · exact not_accepted_of_late (hr.trans hr')

end Reached

/-- Two submissions pass an intake that holds one, the second while a shutdown has begun. A third
one had found the pipeline open and comes too late, a fourth one is made after the shutdown began.
-/
def shutdownMoves : List Move :=
  let target : Instance := ⟨"a", "http://a"⟩
  let submit (id : String) : Move := .submit 0 { (default : Message) with id } [target]
  [.start { storeCapacity := 1 } .works, submit "1", submit "2", submit "3",
    .act 0 (.arrive 0), .act 0 .accept, .act 0 (.arrive 1), .act 0 .close, submit "4",
    .act 0 .receive, .act 0 .accept, .act 0 (.store .works), .act 0 .forward,
    .act 0 .receive, .act 0 .accept, .act 0 (.store .fails), .act 0 .forward,
    .act 0 .receive, .act 0 .closeIntake, .act 0 (.arrive 2), .act 0 .accept, .act 0 .retire,
    .act 0 .finish]

theorem submissions_accounted_of_drained :
    ∃ w g, Reachable (initial ⟨[]⟩ .fresh) w ∧ w.generations[0]? = some g ∧
      .stopped .drained ∈ w.traceOf 0 ∧ ((w.traceOf 0).filterMap accepted?).length = 2 ∧
      (w.traceOf 0).filterMap failed? = [2, 3] ∧
      g.intake.entries = [] ∧ ∀ s, (0, .accepted s) ∈ w.trace →
        (w.trace.filterMap (·.2.settled?)).count s.key = 1 := by
  have hrun : ((initial ⟨[]⟩ .fresh).run (fun _ _ ↦ True) shutdownMoves).any (fun w ↦
      w.generations[0]?.any fun _ ↦ .stopped .drained ∈ w.traceOf 0 ∧
        ((w.traceOf 0).filterMap accepted?).length = 2 ∧
        (w.traceOf 0).filterMap failed? = [2, 3]) = true := by
    decide +kernel
  obtain ⟨w, g, hr, hg, htest⟩ := exists_of_run hrun
  obtain ⟨hdrained, haccepted, hfailed⟩ := of_decide_eq_true htest
  exact ⟨w, g, hr, hg, hdrained, haccepted, hfailed,
    (submissions_accounted hr).1 0 g hg (Or.inl hdrained)⟩

end PeerRelay.Delivery
