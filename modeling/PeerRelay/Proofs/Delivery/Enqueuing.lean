import PeerRelay.Proofs.Delivery.Draining
import PeerRelay.Proofs.Delivery.Schedule
import PeerRelay.Proofs.Delivery.Shutdown

/-!
# Handing in a message for everyone

Who hands in a message waits until the call was accepted or refused, while everybody else goes on;
or gives up. `Enqueues` relates the world before and the world after by what is seen of the call in
the end, and leaves open what else happens meanwhile.

The caller is told that the message was accepted if and only if it was, as a ticket is accepted
once at most and not if it failed (`Enqueues.ok_iff`). A caller that is told of a failure has handed
in the message for nothing, then and later (`Enqueues.inVain`). A submission on a stage goes one of
these ways (`Stage.enqueues_of_submit`): one that gives up can do so, since a call of which nothing
is known still waits.
-/

namespace PeerRelay.Delivery

open Observation World

/-- The moves of some pipeline lead to the world. -/
def World.Possible (w : World) : Prop :=
  ∃ d db, Reachable (initial d db) w

theorem World.Possible.trans {w w' : World} (h : w.Possible) (hr : Reachable w w') :
    w'.Possible := by
  obtain ⟨d, db, h⟩ := h
  exact ⟨d, db, Reaches.trans h hr⟩

/-- How it can go to hand in a message for everyone. Who is not accepted is told why, or gives up,
or found no pipeline. -/
inductive Enqueues (m : Message) (v : World) : Except Failure Unit → World → Prop
  | accepted (n n' : Nat) (x : Submission) (v₁ v' : World) (call : v.submit n m [] = some v₁)
      (later : Reachable v₁ v') (seen : (n', .accepted x) ∈ v'.trace)
      (ticket : x.ticket = v.nextTicket) : Enqueues m v (.ok ()) v'
  | refused (n n' : Nat) (fault : QueueFault) (v₁ v' : World) (call : v.submit n m [] = some v₁)
      (later : Reachable v₁ v') (seen : (n', .refused v.nextTicket fault) ∈ v'.trace) :
      Enqueues m v (.error (.queueing fault)) v'
  | abandoned (n n' : Nat) (failure : Failure) (v₁ v' : World) (call : v.submit n m [] = some v₁)
      (later : Reachable v₁ v') (seen : (n', .abandoned v.nextTicket) ∈ v'.trace) :
      Enqueues m v (.error failure) v'
  | nowhere (failure : Failure) : Enqueues m v (.error failure) v

/-- Nothing came of a call: it was not made, or its ticket is never accepted and has no effect. -/
def InVain (v v' : World) : Prop :=
  v' = v ∨ ∀ w, Reachable v' w → ∀ entry ∈ w.trace, entry.2.effect? ≠ some v.nextTicket ∧
    ∀ x, entry.2 = .accepted x → x.ticket ≠ v.nextTicket

namespace Enqueues

variable {m : Message} {v v' : World} {result : Except Failure Unit} {failure : Failure}

theorem reachable (h : Enqueues m v result v') : Reachable v v' := by
  cases h with
  | accepted n n' x v₁ _ call later | refused n n' fault v₁ _ call later
  | abandoned n n' failure v₁ _ call later =>
    exact Reaches.trans (.step (.submit n m []) .start trivial call) later
  | nowhere failure => exact .start

/-- A call that failed is never accepted and has no effect. -/
theorem inVain_of_failed {n : Nat} {o : Observation} (hv' : v'.Possible) (ho : (n, o) ∈ v'.trace)
    (hk : o.failed? = some v.nextTicket) : InVain v v' := by
  obtain ⟨d, db, hv'⟩ := hv'
  refine Or.inr fun w hr ↦ ?_
  have hw := Reaches.trans hv' hr
  have hfailed := hr.trace_suffix.subset ho
  rintro ⟨n', o'⟩ hentry
  refine ⟨no_effect_of_failed hw hfailed hk _ hentry, ?_⟩
  rintro x rfl
  exact not_accepted_of_failed hw hfailed hk n' x hentry

/-- Who is told of a failure has handed in the message for nothing. -/
theorem inVain (h : Enqueues m v (.error failure) v') (hv : v.Possible) : InVain v v' := by
  have hv' := hv.trans h.reachable
  cases h with
  | refused n n' fault v₁ _ call later seen => exact inVain_of_failed hv' seen rfl
  | abandoned n n' failure v₁ _ call later seen => exact inVain_of_failed hv' seen rfl
  | nowhere failure => exact Or.inl rfl

/-- The caller is told that the message was accepted if and only if it was. -/
theorem ok_iff (h : Enqueues m v result v') (hv : v.Possible) :
    result = .ok () ↔ ∃ n, (n, .accepted ⟨v.nextTicket, m, []⟩) ∈ v'.trace := by
  constructor
  · rintro rfl
    obtain ⟨d, db, hv'⟩ := hv.trans h.reachable
    cases h with
    | accepted n n' x v₁ _ call later seen ticket =>
      -- the ticket tells that what was accepted is the call
      have hcall := later.trace_suffix.subset (called_of_submit call)
      have hentry := eq_of_issued hv' (called_of_mem_accepted hv' seen) hcall
        (congrArg some ticket) rfl
      obtain ⟨rfl, hcalled⟩ := Prod.mk.inj hentry
      obtain rfl := Observation.called.inj hcalled
      exact ⟨n', seen⟩
  · rintro ⟨n, haccepted⟩
    cases result with
    | ok _ => rfl
    | error failure =>
      rcases h.inVain hv with rfl | hnever
      · -- the ticket is not issued yet
        obtain ⟨d, db, hv⟩ := hv
        have hcalled := called_of_mem_accepted hv haccepted
        have hissued : v'.nextTicket ∈ issued v'.trace := List.mem_filterMap.2 ⟨_, hcalled, rfl⟩
        exact absurd ((issued_fresh hv).2 _ hissued) (Nat.lt_irrefl _)
      · exact absurd rfl ((hnever v' .start _ haccepted).2 _ rfl)

end Enqueues

/-! ### Submissions on a stage -/

/-- Who waits can give up. -/
theorem Generation.exists_giveUp {g : Generation} {k : Nat} (hwaits : k ∈ g.calls) (w : World) :
    ∃ c, g.act w (.giveUp k) = some c ∧ .abandoned k ∈ c.seen := by
  have hany : g.arriving.any (·.ticket = k) ∨ g.callers.any (·.ticket? = some k) := by
    simpa [calls] using hwaits
  rw [act, giveUp, if_pos hany]
  exact ⟨_, rfl, List.mem_singleton_self _⟩

/-- A call of which nothing is known waits. -/
theorem mem_calls_of_unknown {may : World → Move → Prop} {d : Directory} {db : Store.Database}
    {w : World} {n : Nat} {g : Generation} {s : Submission} (hr : Reaches may (initial d db) w)
    (hg : w.generations[n]? = some g) (hs : (n, .called s) ∈ w.trace)
    (haccepted : ∀ x, (n, .accepted x) ∈ w.trace → x.ticket ≠ s.ticket)
    (hfailed : ∀ o, (n, o) ∈ w.trace → o.failed? ≠ some s.ticket) : s.ticket ∈ g.calls := by
  have hcalls := calls_accounted hr hg s.ticket
  have hcalled : 0 < ((w.traceOf n).filterMap called?).count s.ticket :=
    List.count_pos_iff.2 (List.mem_filterMap.2 ⟨_, mem_traceOf.2 hs, rfl⟩)
  have hno_accepted : (((w.traceOf n).filterMap accepted?).map (·.ticket)).count s.ticket = 0 := by
    refine List.count_eq_zero.2 fun hmem ↦ ?_
    obtain ⟨x, hx, hticket⟩ := List.mem_map.1 hmem
    exact haccepted x (mem_accepted.1 hx) hticket
  have hno_failed : ((w.traceOf n).filterMap failed?).count s.ticket = 0 := by
    refine List.count_eq_zero.2 fun hmem ↦ ?_
    obtain ⟨o, ho, hk⟩ := List.mem_filterMap.1 hmem
    exact hfailed o (mem_traceOf.1 ho) hk
  exact List.count_pos_iff.1 (by omega)

namespace Stage

/-- What a submitter is told; one who gives up says why. -/
def Submitted.result (failure : Failure) : Submitted → Except Failure Unit
  | .accepted => .ok ()
  | .refused fault => .error (.queueing fault)
  | .abandoned => .error failure

/-- A call of which nothing is known gives up. -/
theorem abandoned_of_unknown {s : Stage} {n : Nat} {x : Submission} (hs : s.world.Possible)
    (hcalled : (n, .called x) ∈ s.world.trace) (hunknown : s.submitted? x.ticket = none) :
    (n, .abandoned x.ticket) ∈ ((s.act? n (.giveUp x.ticket)).getD s).world.trace := by
  obtain ⟨d, db, hr⟩ := hs
  obtain ⟨hnot_accepted, hnot_refused⟩ := not_seen_of_submitted hunknown
  obtain ⟨g, hg⟩ := exists_generation hr hcalled
  by_cases hgone : (n, .abandoned x.ticket) ∈ s.world.trace
  · have hgiveUp : Leads (fun _ _ ↦ True) s ((s.act? n (.giveUp x.ticket)).getD s) :=
      leads_getD fun _ ↦ leads_act allowsActs_any _
    exact hgiveUp.reaches.trace_suffix.subset hgone
  · have hfailed : ∀ o, (n, o) ∈ s.world.trace → o.failed? ≠ some x.ticket := by
      intro o ho hk
      cases o <;> cases hk
      · exact hnot_refused n _ ho
      · exact hgone ho
    have hwaits := mem_calls_of_unknown hr hg hcalled (fun x ↦ hnot_accepted n x) hfailed
    obtain ⟨c, hact, hseen⟩ := Generation.exists_giveUp hwaits s.world
    rw [act?, World.act, hg]
    dsimp only
    rw [hact]
    exact List.mem_append_left _ (List.mem_reverse.2 (List.mem_map_of_mem hseen))

/-- A submission on a stage for everyone goes one of the ways, also if the stage then goes on. -/
theorem enqueues_of_submit {s s' : Stage} {m : Message} {patience : Option Nat}
    {outcome : Submitted} {w' : World} (hv : s.world.Possible)
    (h : s.submit m [] patience = some (outcome, s'))
    (hlater : Reachable s'.world w') (failure : Failure) :
    Enqueues m s.world (outcome.result failure) w' := by
  obtain ⟨n, w, -, hcall, hleads, hseen | ⟨rfl, s₁, hwaited, hunknown, rfl⟩⟩ :=
    leads_of_submit allowsActs_any h
  · have hafter := Reaches.trans hleads.reaches hlater
    cases outcome with
    | accepted =>
      obtain ⟨n', x, hx, hticket⟩ := hseen
      exact .accepted n n' x w _ hcall hafter (hlater.trace_suffix.subset hx) hticket
    | refused fault =>
      obtain ⟨n', hrefused⟩ := hseen
      exact .refused n n' fault w _ hcall hafter (hlater.trace_suffix.subset hrefused)
    | abandoned => exact hseen.elim
  · refine .abandoned n n failure w _ hcall (Reaches.trans hleads.reaches hlater)
      (hlater.trace_suffix.subset ?_)
    exact abandoned_of_unknown (x := ⟨s.world.nextTicket, m, []⟩)
      (hv.trans (Reaches.trans (.step (.submit n m []) .start trivial hcall) hwaited.reaches))
      (hwaited.reaches.trace_suffix.subset (called_of_submit hcall)) hunknown

end Stage

end PeerRelay.Delivery
