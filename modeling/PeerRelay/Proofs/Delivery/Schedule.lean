import PeerRelay.Delivery.Schedule
import PeerRelay.Proofs.Delivery.Runs

/-!
# The schedule makes moves

Whatever is done on a stage between two submissions are acts of participants and the passing of
time (`Stage.Leads`): an act is one move, trying several acts is doing one of them, and repeating
them or waiting keeps what holds of one. So the world of a stage is one that moves lead to, and what
is known of all interleavings is known of the schedule. A submission, a start and a shutdown are
followed to the observations that their outcomes stand for.
-/

namespace PeerRelay.Delivery

open World

/-- Whatever the participants do is allowed, and that time passes. -/
structure AllowsActs (may : World → Move → Prop) : Prop where
  act : ∀ w n a, may w (.act n a)
  tick : ∀ w millis, may w (.tick millis)

theorem allowsActs_any : AllowsActs fun _ _ ↦ True :=
  ⟨fun _ _ _ ↦ trivial, fun _ _ ↦ trivial⟩

namespace Stage

/-- One stage leads to another one with the same current generation. -/
structure Leads (may : World → Move → Prop) (s s' : Stage) : Prop where
  current : s'.current = s.current
  reaches : Reaches may s.world s'.world

section Leads

variable {may : World → Move → Prop} {s s' s'' : Stage} {n : Nat}

theorem Leads.refl (s : Stage) : Leads may s s :=
  ⟨rfl, .start⟩

theorem Leads.trans (h : Leads may s s') (h' : Leads may s' s'') : Leads may s s'' :=
  ⟨h'.current.trans h.current, h.reaches.trans h'.reaches⟩

/-- What is done if it is possible leads on as what is done when it is. -/
theorem leads_getD {f : Option Stage} (h : ∀ s', f = some s' → Leads may s s') :
    Leads may s (f.getD s) := by
  cases f with
  | none => exact .refl s
  | some s' => exact h s' rfl

/-- An act that is tried in place of another one. -/
theorem leads_orElse {f g : Option Stage} (hf : ∀ s', f = some s' → Leads may s s')
    (hg : ∀ s', g = some s' → Leads may s s') : ∀ s', (f <|> g) = some s' → Leads may s s' := by
  intro s' h
  cases f with
  | none => exact hg s' (by simpa using h)
  | some s₁ => exact hf s' (by simpa using h)

theorem leads_anyGeneration {f : Nat → Option Stage}
    (h : ∀ n s', f n = some s' → Leads may s s') :
    ∀ s', s.anyGeneration f = some s' → Leads may s s' := by
  intro s' hfind
  obtain ⟨n, -, hn⟩ := List.exists_of_findSome?_eq_some hfind
  exact h n s' hn

/-- Repeating an act. -/
theorem leads_exhaust {f : Stage → Option Stage} (h : ∀ s s', f s = some s' → Leads may s s')
    (fuel : Nat) (s : Stage) : Leads may s (exhaust f fuel s) := by
  induction fuel generalizing s with
  | zero => exact .refl s
  | succ fuel ih =>
    rw [exhaust]
    split
    · rename_i s' hs'
      exact (h s s' hs').trans (ih s')
    · exact .refl s

end Leads

/-! ### What is seen of an outcome -/

section Seen

variable {s s' : Stage} {n : Nat}

/-- What is seen of the outcome of a submission. -/
def Submitted.Seen (ticket : Nat) (trace : List (Nat × Observation)) : Submitted → Prop
  | .accepted => ∃ n x, (n, .accepted x) ∈ trace ∧ x.ticket = ticket
  | .refused fault => ∃ n, (n, .refused ticket fault) ∈ trace
  | .abandoned => False

theorem seen_of_submitted {ticket : Nat} {outcome : Submitted}
    (h : s.submitted? ticket = some outcome) : outcome.Seen ticket s.world.trace := by
  obtain ⟨⟨n, o⟩, hmem, ho⟩ := List.exists_of_findSome?_eq_some h
  cases o with
  | accepted x =>
    dsimp only at ho
    split at ho
    · rename_i hticket
      cases ho
      exact ⟨n, x, hmem, hticket⟩
    · cases ho
  | refused t fault =>
    dsimp only at ho
    split at ho
    · rename_i hticket
      cases ho
      exact ⟨n, hticket ▸ hmem⟩
    · cases ho
  | _ => cases ho

/-- As long as nothing is known of a submission it was neither accepted nor refused. -/
theorem not_seen_of_submitted {ticket : Nat} (h : s.submitted? ticket = none) :
    (∀ n x, (n, .accepted x) ∈ s.world.trace → x.ticket ≠ ticket) ∧
      ∀ n fault, (n, .refused ticket fault) ∉ s.world.trace := by
  have hnone := List.findSome?_eq_none_iff.1 h
  refine ⟨fun n x hx hticket ↦ ?_, fun n fault hmem ↦ ?_⟩
  · simpa [hticket] using hnone _ hx
  · simpa using hnone _ hmem

/-- The end of a shutdown whose storing worker ended. -/
theorem mem_drained_of_finish {g : Generation} (h : s.act? n .finish = some s')
    (hg : s.world.generations[n]? = some g) (hended : g.storing = .ended) :
    (n, .stopped .drained) ∈ s'.world.trace := by
  obtain ⟨w, hact, rfl⟩ := Option.map_eq_some_iff.1 h
  cases moves_of_act hact with
  | act _ g₁ _ c at_n acts =>
    obtain rfl : g = g₁ := Option.some.inj (hg.symm.trans at_n)
    cases acts with
    | finish closed notStopped outcome ended =>
      obtain rfl : outcome = .drained := by
        rcases ended with ⟨-, rfl⟩ | ⟨hcrashed, -⟩
        · rfl
        · rw [hended] at hcrashed
          contradiction
      exact List.mem_append_left _ (by simp)

end Seen

/-! ### What the participants do -/

section Acts

variable {may : World → Move → Prop} {s s' : Stage} {n : Nat} (hacts : AllowsActs may)

include hacts

theorem leads_act (a : Action) (h : s.act? n a = some s') : Leads may s s' := by
  obtain ⟨w, hact, rfl⟩ := Option.map_eq_some_iff.1 h
  exact ⟨rfl, .step (.act n a) .start (hacts.act _ n a) hact⟩

/-- The clock never goes back. -/
theorem leads_waitUntil (s : Stage) (instant : Nat) : Leads may s (s.waitUntil instant) := by
  refine ⟨rfl, .step (.tick (instant - s.world.clock)) .start (hacts.tick _ _) ?_⟩
  have hclock : s.world.clock + (instant - s.world.clock) = max s.world.clock instant := by omega
  rw [World.move, hclock, waitUntil]

theorem leads_waitOut (s : Stage) (deadline : Option Nat) : Leads may s (s.waitOut deadline) := by
  cases deadline with
  | none => exact .refl s
  | some instant => exact leads_waitUntil hacts s instant

theorem leads_answer (h : s.answer? n = some s') : Leads may s s' := by
  rw [answer?] at h
  split at h
  · contradiction
  · simp only [Option.bind_eq_bind, Option.bind_eq_some_iff] at h
    obtain ⟨g, -, t, -, target, -, h⟩ := h
    obtain ⟨hcurrent, hreaches⟩ := leads_act hacts _ h
    exact ⟨hcurrent, hreaches⟩

theorem leads_concluding (s : Stage) (n : Nat) :
    ∀ s', s.concluding? n = some s' → Leads may s s' := by
  have hact : ∀ a s', s.act? n a = some s' → Leads may s s' := fun a s' ↦ leads_act hacts a
  exact leads_orElse (hact _) (leads_orElse (hact _) (leads_orElse (hact _) (hact _)))

theorem leads_storing (s : Stage) (n : Nat) : ∀ s', s.storing? n = some s' → Leads may s s' := by
  have hact : ∀ a s', s.act? n a = some s' → Leads may s s' := fun a s' ↦ leads_act hacts a
  exact leads_orElse (hact _) (leads_orElse (hact _) (leads_orElse (hact _)
    (leads_orElse (hact _) (leads_orElse (hact _) (hact _)))))

theorem leads_sending (s : Stage) (n : Nat) : ∀ s', s.sending? n = some s' → Leads may s s' :=
  leads_orElse (fun _ ↦ leads_answer hacts)
    (leads_orElse (fun _ ↦ leads_act hacts _) fun _ ↦ leads_act hacts _)

theorem leads_passing (s : Stage) : ∀ s', s.passing? = some s' → Leads may s s' :=
  leads_orElse (leads_anyGeneration (leads_concluding hacts s))
    (leads_orElse (leads_anyGeneration fun _ _ ↦ leads_act hacts _)
      (leads_anyGeneration fun _ _ ↦ leads_act hacts _))

theorem leads_storingFirst (s : Stage) : ∀ s', s.storingFirst? = some s' → Leads may s s' :=
  leads_orElse (leads_passing hacts s) (leads_anyGeneration (leads_storing hacts s))

theorem leads_settle (s : Stage) : Leads may s s.settle :=
  leads_exhaust (fun s ↦ leads_orElse (leads_storingFirst hacts s)
    (leads_anyGeneration (leads_sending hacts s))) _ s

theorem leads_acceptCaller (s : Stage) (n : Nat) : Leads may s (s.acceptCaller n) :=
  leads_getD fun _ ↦ leads_act hacts _

theorem leads_awaitRoom (ticket : Nat) (deadline : Option Nat) (fuel : Nat) (s : Stage) :
    Leads may s (awaitRoom n ticket deadline fuel s) := by
  induction fuel generalizing s with
  | zero => exact .refl s
  | succ fuel ih =>
    have hturn := (leads_exhaust (leads_storingFirst hacts) actsPerInstant s).trans
      (leads_acceptCaller hacts _ n)
    rw [awaitRoom]
    split
    · exact hturn
    · split
      · rename_i s₁ hs₁
        exact (hturn.trans (leads_anyGeneration (leads_sending hacts _) s₁ hs₁)).trans (ih s₁)
      · split
        · split
          · exact (hturn.trans (leads_waitUntil hacts _ _)).trans (ih _)
          · exact hturn.trans (leads_waitOut hacts _ _)
        · exact hturn.trans (leads_waitOut hacts _ _)

/-- The sending worker of a stopped generation goes on to where it ends. -/
theorem leads_halt (s : Stage) (n : Nat) : Leads may s (s.halt n) :=
  (leads_getD fun _ ↦ leads_act hacts _).trans (leads_getD fun _ ↦ leads_act hacts _)

theorem leads_awaitStored (deadline fuel : Nat) (s : Stage) :
    Leads may s (awaitStored n deadline fuel s) := by
  induction fuel generalizing s with
  | zero => exact .refl s
  | succ fuel ih =>
    have hturn := (leads_acceptCaller hacts s n).trans (leads_settle hacts _)
    rw [awaitStored]
    split
    · exact hturn
    · split
      · rename_i s₁ hs₁
        exact (hturn.trans (leads_act hacts _ hs₁)).trans (ih s₁)
      · split
        · split
          · exact (hturn.trans (leads_waitUntil hacts _ _)).trans (ih _)
          · exact hturn.trans (leads_waitUntil hacts _ _)
        · exact hturn.trans (leads_waitUntil hacts _ _)

/-! ### Submitting, starting and stopping -/

/-- A submission is a call of the current generation and what follows it, up to where its outcome is
seen or the call gives up. -/
theorem leads_of_submit {m : Message} {targets : List Instance} {patience : Option Nat}
    {outcome : Submitted} (h : s.submit m targets patience = some (outcome, s')) :
    ∃ n w, s.current = some n ∧ s.world.submit n m targets = some w ∧
      Leads may { s with world := w } s' ∧
      (outcome.Seen s.world.nextTicket s'.world.trace ∨ outcome = .abandoned ∧
        ∃ s₁, Leads may { s with world := w } s₁ ∧ s₁.submitted? s.world.nextTicket = none ∧
          s' = (s₁.act? n (.giveUp s.world.nextTicket)).getD s₁) := by
  simp only [submit, Option.bind_eq_bind, Option.bind_eq_some_iff] at h
  obtain ⟨n, hcurrent, w, hsubmit, h⟩ := h
  refine ⟨n, w, hcurrent, hsubmit, ?_⟩
  have hqueued : Leads may { s with world := w }
      (((({ s with world := w } : Stage).act? n (.arrive s.world.nextTicket)).getD
        { s with world := w }).acceptCaller n) :=
    (leads_getD fun _ ↦ leads_act hacts _).trans (leads_acceptCaller hacts _ n)
  generalize acceptCaller _ n = s₁ at h hqueued
  split at h
  · rename_i outcome' hknown
    obtain ⟨rfl, rfl⟩ := Prod.mk.inj (Option.some.inj h)
    exact ⟨hqueued, Or.inl (seen_of_submitted hknown)⟩
  · -- the call waits for room
    have hwaited := hqueued.trans (leads_awaitRoom hacts (n := n) s.world.nextTicket
      (patience.map (s₁.world.clock + ·)) actsPerInstant s₁)
    generalize awaitRoom n _ _ _ s₁ = s₂ at h hwaited
    split at h
    · rename_i outcome' hknown
      obtain ⟨rfl, rfl⟩ := Prod.mk.inj (Option.some.inj h)
      exact ⟨hwaited, Or.inl (seen_of_submitted hknown)⟩
    · rename_i hunknown
      obtain ⟨rfl, rfl⟩ := Prod.mk.inj (Option.some.inj h)
      exact ⟨hwaited.trans (leads_getD fun _ ↦ leads_act hacts _),
        Or.inr ⟨rfl, s₂, hwaited, hunknown, rfl⟩⟩

/-- What is current is dropped, and its sending worker ends. -/
theorem reaches_drop : Reaches may s.world s.drop.world := by
  rw [drop]
  split
  · rename_i n hcurrent
    exact ((leads_getD fun _ ↦ leads_act hacts _).trans (leads_halt hacts _ n)).reaches
  · exact .start

/-- A start, before which what is current is dropped. -/
theorem reaches_start {settings : Settings}
    (hstart : ∀ w call, may w (.start settings call)) :
    Reaches may s.world (s.start settings).world := by
  have hdropped := reaches_drop hacts (s := s)
  rw [start]
  generalize s.drop = s₁ at hdropped
  have hstarted : Reaches may s₁.world (s₁.world.start settings s₁.script.onLoad) :=
    .step (.start settings s₁.script.onLoad) .start (hstart _ _) rfl
  generalize s₁.world.start settings s₁.script.onLoad = w at hstarted ⊢
  have hreload (n : Nat) (s : Stage) :
      ∀ s', (s.passing? <|> s.act? n .reload) = some s' → Leads may s s' :=
    leads_orElse (leads_passing hacts s) fun _ ↦ leads_act hacts .reload
  have hloaded := leads_exhaust (hreload (w.generations.length - 1)) actsPerInstant
    { s₁ with world := w, current := some (w.generations.length - 1) }
  exact (hdropped.trans hstarted).trans hloaded.reaches

/-- A shutdown leads on, and says that everything was stored only if this is seen. -/
theorem leads_of_shutdown {outcome : Stopped} (h : s.shutdown = some (outcome, s')) :
    Leads may s s' ∧ (outcome = .drained →
      ∃ n, s.current = some n ∧ (n, .stopped .drained) ∈ s'.world.trace) := by
  simp only [shutdown, Option.bind_eq_bind, Option.bind_eq_some_iff] at h
  obtain ⟨n, hcurrent, g, -, h⟩ := h
  split at h
  · obtain ⟨rfl, rfl⟩ := Prod.mk.inj (Option.some.inj h)
    exact ⟨.refl s, fun hdrained ↦ nomatch hdrained⟩
  · rename_i s₁ hclose
    have hclosed := leads_act hacts _ hclose
    have hwaited : Leads may s (if g.settings.shutdownTimeout = 0 then s₁.acceptCaller n
        else awaitStored n (s₁.world.clock + g.settings.shutdownTimeout) actsPerInstant s₁) := by
      split
      · exact hclosed.trans (leads_acceptCaller hacts _ n)
      · exact hclosed.trans (leads_awaitStored hacts _ _ _)
    generalize (if g.settings.shutdownTimeout = 0 then s₁.acceptCaller n
      else awaitStored n (s₁.world.clock + g.settings.shutdownTimeout) actsPerInstant s₁) = s₂
      at h hwaited
    split at h
    · rename_i s₃ hfinish
      rw [Option.pure_def, Option.some_inj, Prod.mk.injEq] at h
      obtain ⟨houtcome, rfl⟩ := h
      have hhalted := leads_halt hacts s₃ n
      refine ⟨(hwaited.trans (leads_act hacts _ hfinish)).trans hhalted, ?_⟩
      rintro rfl
      refine ⟨n, hcurrent, hhalted.reaches.trace_suffix.subset ?_⟩
      split at houtcome
      · rename_i g₂ hg₂
        split at houtcome
        · rename_i hended
          exact mem_drained_of_finish hfinish hg₂ (eq_of_beq hended)
        · contradiction
      · contradiction
    · rw [Option.pure_def, Option.some_inj, Prod.mk.injEq] at h
      obtain ⟨rfl, rfl⟩ := h
      have hexpired := hwaited.trans (leads_getD fun _ ↦ leads_act hacts (n := n) .expire)
      have hcancelled := hexpired.trans (leads_getD fun _ ↦ leads_act hacts (n := n) .cancel)
      exact ⟨hcancelled.trans (leads_halt hacts _ n), fun hdrained ↦ nomatch hdrained⟩

end Acts

end Stage

end PeerRelay.Delivery
