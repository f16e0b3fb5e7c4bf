import PeerRelay.Proofs.Delivery.Order
import PeerRelay.Proofs.Delivery.Visits
import PeerRelay.Proofs.Delivery.Waiting

/-!
# The order of first attempts

A duty is *fresh* while its peer was not called for it yet. Fresh duties stand in one line: those
ahead in the tour of the sending worker, those in the outbox, those of who waits for room, and the
records that are still to be reloaded. A retry joins the same places, but is not fresh. While the
outbox is open, what was attempted first and what is fresh are together what was reloaded and what
was forwarded on behalf of submissions, in this order (`Aligned`); once the outbox is closed nothing
is attempted any more. A storing worker that is cancelled takes its parcel out of the line, where it
stood last (`Generation.fresh_of_cancel`), and forwards nothing more.

So the first attempts come in the order of the records and, behind them, of the submissions as they
were accepted, however retries go in between.
-/

namespace PeerRelay.Delivery

open Observation World

/-! ### Fresh duties -/

namespace Observation

/-- The duty of a call. -/
def attempt? : Observation → Option Duty
  | .attempt ticket m target _ => some ⟨ticket, m, target⟩
  | _ => none

/-- The duty of a call that is no retry. -/
def firstAttempt? : Observation → Option Duty
  | .attempt ticket m target 0 => some ⟨ticket, m, target⟩
  | _ => none

theorem firstAttempt?_eq_none {o : Observation} (h : o.attempt? = none) :
    o.firstAttempt? = none := by
  cases o <;> first | rfl | cases h

/-- A record that was loaded, for its peers. -/
def record? : Observation → Option Consignment
  | .reloaded ticket record => some ⟨ticket, record.message, record.targets⟩
  | _ => none

end Observation

/-- The duties of a parcel that is no retry. -/
def Parcel.freshDuties (p : Parcel) : List Duty :=
  if p.failures = 0 then p.duties else []

/-- The duties ahead in a tour for a parcel that is no retry. -/
def Tour.freshDuties (t : Tour) : List Duty :=
  if t.parcel.failures = 0 then owe t.parcel.ticket t.parcel.message t.ahead else []

namespace Generation

/-- The duties of the sending worker and of those in front of it, first in front. -/
def fresh (g : Generation) : List Duty :=
  g.tour.toList.flatMap Tour.freshDuties ++ (g.outbox.entries.flatMap Parcel.freshDuties ++
    g.waiting.flatMap (·.2.freshDuties))

section Places

variable (g : Generation) (who : Waiter) (p : Parcel)

/-- What is offered to an open outbox stands behind everything else. -/
theorem fresh_offer (isOpen : g.outbox.isOpen = true) :
    (g.offer who p).fresh = g.fresh ++ p.freshDuties := by
  rcases g.offer_cases who p with ⟨hclosed, -⟩ | ⟨-, henter, h⟩ | ⟨-, -, h⟩
  · rw [isOpen] at hclosed
    contradiction
  · -- a parcel enters at once only if nobody waits
    rw [canEnter, Bool.and_eq_true, List.isEmpty_iff] at henter
    simp [h, fresh, Queue.push, henter.2]
  · simp [h, fresh]

/-- A retry is not fresh. -/
theorem fresh_offer_retry (retried : p.failures ≠ 0) : (g.offer who p).fresh = g.fresh := by
  rcases g.offer_cases who p with ⟨-, h⟩ | ⟨-, -, h⟩ | ⟨-, -, h⟩ <;> rw [h]
  · simp [fresh, Queue.push, Parcel.freshDuties, retried]
  · simp [fresh, Parcel.freshDuties, retried]

theorem fresh_reinject (clock : Nat) (retried : p.failures ≠ 0) :
    (g.reinject clock p).fresh = g.fresh := by
  rcases g.reinject_cases clock p with ⟨due, h⟩ | h <;> rw [h]
  · rfl
  · exact g.fresh_offer_retry .retry p retried

@[simp] theorem fresh_release : (g.release who).fresh = g.fresh := by
  rw [fresh, fresh, release_tour, release_outbox, release_waiting]

/-- The end of a visit leaves ahead what was ahead. -/
theorem freshDuties_next (t : Tour) :
    t.next.toList.flatMap Tour.freshDuties = t.freshDuties :=
  t.flatMap_next (fun last ↦ by simp [Tour.freshDuties, last]) rfl

end Places

theorem freshDuties_track (directory : Directory) (ticket : Nat) (m : Message)
    (targets : List Instance) :
    (Parcel.track directory ticket m targets).freshDuties = owe ticket m targets :=
  rfl

/-- An open outbox leaves to the reload what is ahead. -/
theorem reload_release (g : Generation) (who : Waiter) (isOpen : g.outbox.isOpen = true) :
    (g.release who).reload.duties = g.reload.duties := by
  cases who with
  | reload => simp [release, toReload, isOpen, Reload.duties]
  | _ => rfl

section Acts

variable {w : World} {g : Generation} {a : Action} {c : Change}

/-- A retry that sleeps or waits for room was called before. -/
structure Retried (g : Generation) : Prop where
  sleeping : ∀ x ∈ g.sleeping, x.2.failures ≠ 0
  waiting : ∀ p, (.retry, p) ∈ g.waiting → p.failures ≠ 0

/-- Nothing is left to reload once the storing worker took something up. -/
theorem Queuing.reload_duties (h : Queuing g) (busy : g.storing.isBusy = true) :
    g.reload.duties = [] := by
  have hreloaded := h.reloaded busy
  simp only [isReloaded, Bool.and_eq_true, List.isEmpty_iff] at hreloaded
  simp [Reload.duties, hreloaded.1]

/-- While the outbox is open, an action that attempts something takes it from the front of what is
fresh, and what it forwards joins at the end. Only a storing worker that is cancelled may take
something out. -/
theorem Acts.fresh {reloaded : List Nat} (h : g.Acts w a c)
    (isOpen : c.generation.outbox.isOpen = true) (goesOn : a ≠ .cancel) (queuing : Queuing g)
    (retried : Retried g) (written : ∀ x ∈ g.storing.consigned, x.ticket ∉ reloaded)
    (ahead : ∀ entry ∈ g.reload.ahead, entry.1 ∈ reloaded) :
    g.fresh ++ g.reload.duties ++
        (c.seen.filterMap (forwardedBeside? reloaded)).flatMap Consignment.duties =
      c.seen.filterMap firstAttempt? ++ c.generation.fresh ++ c.generation.reload.duties := by
  cases h with
  | forward s targets isWritten p parcel storing waits =>
    have hoffer := g.fresh_offer .storing p (by simpa using isOpen)
    have hticket : s.ticket ∉ reloaded :=
      written ⟨s.ticket, s.message, targets⟩ (by simp [isWritten])
    have hnone := queuing.reload_duties (by rw [isWritten]; rfl)
    have hforwarded : [.forwarded p].filterMap (forwardedBeside? reloaded) =
        [⟨s.ticket, s.message, targets⟩] := by
      simp [parcel, Parcel.track, Parcel.consignment, forwardedBeside?, hticket]
    show g.fresh ++ g.reload.duties ++ _ =
      [] ++ (g.offer .storing p).fresh ++ (g.offer .storing p).reload.duties
    rw [hoffer, hforwarded, offer_reload, hnone, parcel, freshDuties_track]
    simp [Consignment.duties]
  | reload ticket record rest next p parcel =>
    have hopen : g.outbox.isOpen = true := by simpa using isOpen
    have hticket : p.ticket ∈ reloaded := by
      rw [parcel]
      exact ahead (ticket, record) (by simp [next])
    have hrest : g.toReload rest = rest := if_pos hopen
    show g.fresh ++ g.reload.duties ++
        ([.forwarded p].filterMap (forwardedBeside? reloaded)).flatMap Consignment.duties =
      [] ++ (g.offer .reload p).fresh ++ Reload.duties ⟨g.toReload rest, g.mustWait⟩
    rw [g.fresh_offer .reload p hopen, hrest, next, parcel, freshDuties_track]
    simp [forwardedBeside?, Reload.duties, hticket, ← parcel]
  | enter who p rest front entered =>
    have hreload := reload_release { g with waiting := rest, outbox := g.outbox.push p } who entered
    show g.fresh ++ g.reload.duties ++ [] =
      [] ++ (release _ who).fresh ++ (release _ who).reload.duties
    rw [hreload, fresh_release]
    simp [Generation.fresh, front, Queue.push]
  | cancel condemned waits => contradiction
  | forget p _ target removal leaving db done forgets =>
    simp [Generation.fresh, freshDuties_next, leaving, Tour.freshDuties, firstAttempt?,
      forwardedBeside?, List.filterMap_cons]
  | putBack p _ target retrying =>
    show g.fresh ++ g.reload.duties ++ [] =
      [] ++ (reinject _ _ _).fresh ++ (reinject _ _ _).reload.duties
    rw [fresh_reinject _ _ _ (Nat.succ_ne_zero _), reinject_reload]
    simp [Generation.fresh, freshDuties_next, retrying, Tour.freshDuties]
  | wake position due p sleeps isDue =>
    have hretried : p.failures ≠ 0 := retried.sleeping (due, p) (List.mem_of_getElem? sleeps)
    show g.fresh ++ g.reload.duties ++ [] = [] ++ (offer _ _ _).fresh ++ (offer _ _ _).reload.duties
    rw [fresh_offer_retry _ _ _ hretried, offer_reload]
    simp [Generation.fresh]
  | take p rest idle front =>
    simp [Generation.fresh, idle, front, Tour.freshDuties, Parcel.freshDuties, Parcel.duties]
  | endTour p last =>
    simp [Generation.fresh, last, Tour.freshDuties]
  | attempt p target ahead next =>
    cases hfailures : p.failures with
    | zero =>
      simp [Generation.fresh, next, Tour.freshDuties, hfailures, firstAttempt?, forwardedBeside?,
        List.filterMap_cons]
    | succ n =>
      simp [Generation.fresh, next, Tour.freshDuties, hfailures, firstAttempt?, forwardedBeside?,
        List.filterMap_cons]
  | _ =>
    simp_all [Generation.fresh, Tour.freshDuties, firstAttempt?, forwardedBeside?,
      List.filterMap_cons, abortSending, Queue.abandon, Function.comp_def]

/-- A storing worker that was cancelled forwards nothing more. -/
theorem Acts.forwarded_of_cancelled {reloaded : List Nat} (h : g.Acts w a c)
    (cancelled : g.storing = .cancelled) (ahead : ∀ entry ∈ g.reload.ahead, entry.1 ∈ reloaded) :
    c.seen.filterMap (forwardedBeside? reloaded) = [] := by
  cases h with
  | reload ticket record rest next p parcel =>
    have hticket : p.ticket ∈ reloaded := by
      rw [parcel]
      exact ahead (ticket, record) (by simp [next])
    simp [forwardedBeside?, hticket]
  | _ => simp_all [forwardedBeside?, List.filterMap_cons, Function.comp_def]

/-- A storing worker that is cancelled takes its parcel out of the line. Nobody but retries stands
in line with it, so that nothing else that is fresh is behind it. -/
theorem fresh_of_cancel (waits : g.storing = .ready ∨ g.storing = .waiting) (queuing : Queuing g)
    (retried : Retried g) :
    { g with waiting := g.waiting.filter (·.1 ≠ Waiter.storing) }.fresh ++ g.reload.duties <+:
      g.fresh ++ g.reload.duties := by
  rcases waits with hready | hwaiting
  · -- a worker that waits for an entry has no parcel in line
    have hnone : g.waitsWith .storing = 0 := by simpa [hready] using queuing.storing
    have hsame : g.waiting.filter (·.1 ≠ .storing) = g.waiting := by
      refine List.filter_eq_self.2 fun entry hentry ↦ ?_
      have hnot := List.countP_eq_zero.1 hnone entry hentry
      simpa using hnot
    have hfresh :
        { g with waiting := g.waiting.filter (·.1 ≠ Waiter.storing) }.fresh = g.fresh := by
      simp only [Generation.fresh, hsame]
    exact (congrArg (· ++ g.reload.duties) hfresh) ▸ List.prefix_rfl
  · have hreload := queuing.reload_duties (by rw [hwaiting]; rfl)
    have hreloaded := queuing.reloaded (by rw [hwaiting]; rfl)
    have hnone : g.waitsWith .reload = 0 := by
      simp only [isReloaded, Bool.and_eq_true, Bool.not_eq_true'] at hreloaded
      simpa [hreloaded.2] using queuing.reload
    have hretries : (g.waiting.filter (·.1 ≠ .storing)).flatMap (·.2.freshDuties) = [] := by
      refine List.flatMap_eq_nil_iff.2 fun entry hentry ↦ ?_
      obtain ⟨hmem, hother⟩ := List.mem_filter.1 hentry
      obtain ⟨who, p⟩ := entry
      cases who with
      | storing => simp at hother
      | reload => exact absurd (decide_eq_true rfl) (List.countP_eq_zero.1 hnone _ hmem)
      | retry => simp [Parcel.freshDuties, retried.waiting p hmem]
    rw [hreload, List.append_nil, List.append_nil, Generation.fresh, Generation.fresh, hretries]
    simp [← List.append_assoc]

/-- Nothing is attempted while the outbox is closed, nor when it is closed. -/
theorem Acts.no_attempt (h : g.Acts w a c) (hquiet : Quiet g)
    (isClosed : c.generation.outbox.isOpen = false) : c.seen.filterMap attempt? = [] := by
  cases h with
  | attempt p target ahead next =>
    rw [hquiet.tour isClosed] at next
    contradiction
  | _ => simp [attempt?, List.filterMap_cons, Function.comp_def]

theorem Acts.no_firstAttempt (h : g.Acts w a c) (hquiet : Quiet g)
    (isClosed : c.generation.outbox.isOpen = false) : c.seen.filterMap firstAttempt? = [] := by
  have hnone := List.filterMap_eq_nil_iff.1 (h.no_attempt hquiet isClosed)
  exact List.filterMap_eq_nil_iff.2 fun o ho ↦ firstAttempt?_eq_none (hnone o ho)

theorem Retried.offer (h : Retried g) (who : Waiter) {p : Parcel}
    (hp : who = .retry → p.failures ≠ 0) : Retried (g.offer who p) := by
  refine ⟨by simpa using h.sleeping, fun q hq ↦ ?_⟩
  rw [offer_waiting] at hq
  split at hq
  · rcases List.mem_append.1 hq with hbefore | hnew
    · exact h.waiting q hbefore
    · obtain ⟨rfl, rfl⟩ := Prod.mk.inj (List.mem_singleton.1 hnew)
      exact hp rfl
  · exact h.waiting q hq

theorem Retried.reinject (h : Retried g) {clock : Nat} {p : Parcel} (hp : p.failures ≠ 0) :
    Retried (g.reinject clock p) := by
  rcases g.reinject_cases clock p with ⟨due, heq⟩ | heq <;> rw [heq]
  · refine ⟨fun x hx ↦ ?_, h.waiting⟩
    rcases List.mem_append.1 hx with hbefore | hnew
    · exact h.sleeping x hbefore
    · rw [List.mem_singleton.1 hnew]
      exact hp
  · exact h.offer .retry fun _ ↦ hp

theorem Acts.retried (h : g.Acts w a c) (hg : Retried g) : Retried c.generation := by
  cases h with
  | forward s targets written p parcel storing waits =>
    have hoffer := hg.offer .storing (p := p) nofun
    exact ⟨hoffer.sleeping, hoffer.waiting⟩
  | reload ticket record rest next p parcel =>
    have hoffer := hg.offer .reload (p := p) nofun
    exact ⟨hoffer.sleeping, hoffer.waiting⟩
  | enter who p rest front isOpen =>
    refine ⟨by simpa using hg.sleeping, fun q hq ↦ hg.waiting q ?_⟩
    rw [release_waiting] at hq
    exact front ▸ List.mem_cons_of_mem _ hq
  | enterClosed who p rest front isClosed =>
    refine ⟨by simpa using hg.sleeping, fun q hq ↦ hg.waiting q ?_⟩
    rw [release_waiting] at hq
    exact front ▸ List.mem_cons_of_mem _ hq
  | cancel condemned waits =>
    exact ⟨hg.sleeping, fun q hq ↦ hg.waiting q (List.mem_of_mem_filter hq)⟩
  | putBack p ahead target retrying =>
    have hrest : Retried { g with tour := Tour.next ⟨p, ahead, .retrying target⟩ } :=
      ⟨hg.sleeping, hg.waiting⟩
    exact hrest.reinject (Nat.succ_ne_zero _)
  | wake position due p sleeps isDue =>
    have hrest : Retried { g with sleeping := g.sleeping.eraseIdx position } :=
      ⟨fun x hx ↦ hg.sleeping x (List.mem_of_mem_eraseIdx hx), hg.waiting⟩
    exact hrest.offer .retry fun _ ↦ hg.sleeping (due, p) (List.mem_of_getElem? sleeps)
  | _ => exact ⟨hg.sleeping, hg.waiting⟩

end Acts

end Generation

/-! ### Over a run -/

/-- What was reloaded, and what was forwarded on behalf of submissions, each for its peers. -/
def toAttempt (tr : List Observation) : List Duty :=
  (history record? tr).flatMap Consignment.duties ++
    (history (forwardedBeside? (tr.filterMap reloaded?)) tr).flatMap Consignment.duties

/-- What was attempted first and what is fresh are together what is to be attempted, unless the
storing worker was cancelled and took its last parcel back. A sending worker that ended stopped
somewhere in it. -/
structure Aligned (g : Generation) (tr : List Observation) : Prop where
  order : g.outbox.isOpen = true → g.storing ≠ .cancelled →
    history firstAttempt? tr ++ g.fresh ++ g.reload.duties = toAttempt tr
  within : g.outbox.isOpen = true →
    history firstAttempt? tr ++ g.fresh ++ g.reload.duties <+: toAttempt tr
  attempted : history firstAttempt? tr <+: toAttempt tr
  retried : g.Retried

theorem record?_of_acts {w : World} {g : Generation} {a : Action} {c : Change}
    (h : g.Acts w a c) : c.seen.filterMap record? = [] := by
  refine List.filterMap_eq_nil_iff.2 fun o ho ↦ ?_
  have hissued := issued?_of_acts h o ho
  cases o <;> first | rfl | cases hissued

/-- What an action forwards on behalf of submissions is to be attempted last. -/
theorem toAttempt_seen {w : World} {g : Generation} {a : Action} {c : Change} (h : g.Acts w a c)
    (tr : List Observation) : toAttempt (c.seen.reverse ++ tr) = toAttempt tr ++
      (c.seen.filterMap (forwardedBeside? (tr.filterMap reloaded?))).flatMap
        Consignment.duties := by
  rw [toAttempt, reloaded?_seen h, history_seen, history_seen, record?_of_acts h, List.append_nil,
    List.flatMap_append, toAttempt, List.append_assoc]

@[simp] theorem toAttempt_called (s : Submission) (tr : List Observation) :
    toAttempt (.called s :: tr) = toAttempt tr := by
  simp [toAttempt, record?, forwardedBeside?, reloaded?, List.filterMap_cons]

@[simp] theorem toAttempt_refused (ticket : Nat) (fault : QueueFault) (tr : List Observation) :
    toAttempt (.refused ticket fault :: tr) = toAttempt tr := by
  simp [toAttempt, record?, forwardedBeside?, reloaded?, List.filterMap_cons]

/-- At the start the records are to be attempted. -/
theorem toAttempt_reloadSeen (records : List (Nat × Store.Record)) :
    toAttempt (reloadSeen records).reverse = Reload.duties ⟨records, false⟩ := by
  simp [toAttempt, history, reloadSeen, record?, forwardedBeside?, Function.comp_def,
    Reload.duties, Consignment.duties, List.flatMap_map]

/-- An action keeps the order: what it attempts leaves the line in front, and what it forwards joins
the line as it joins what is to be attempted. -/
theorem Aligned.line_seen {w : World} {g : Generation} {a : Action} {c : Change}
    {tr : List Observation} (h : Aligned g tr) (hacts : g.Acts w a c) (goesOn : a ≠ .cancel)
    (isOpen : c.generation.outbox.isOpen = true) (hqueuing : g.Queuing)
    (hconsigned : Consigned g tr)
    (hwritten : ∀ x ∈ g.storing.consigned, x.ticket ∉ tr.filterMap reloaded?) :
    history firstAttempt? (c.seen.reverse ++ tr) ++ c.generation.fresh ++
        c.generation.reload.duties =
      history firstAttempt? tr ++ g.fresh ++ g.reload.duties ++
        (c.seen.filterMap (forwardedBeside? (tr.filterMap reloaded?))).flatMap
          Consignment.duties := by
  have hstep := hacts.fresh isOpen goesOn hqueuing h.retried hwritten hconsigned.ahead_reloaded
  simp only [history_seen, List.append_assoc] at hstep ⊢
  rw [hstep]

theorem aligned_invariant :
    LocalInvariant (fun _ ↦ True)
      (fun _ g tr ↦ Quiet g ∧ g.Queuing ∧ Consigned g tr ∧
        ∀ x ∈ g.storing.consigned, x.ticket ∉ tr.filterMap reloaded?)
      (fun _ g tr ↦ Aligned g tr) where
  start first settings records := by
    have hattempts : history firstAttempt? (reloadSeen (numbered first records)).reverse = [] := by
      simp [history, reloadSeen, firstAttempt?, Function.comp_def]
    have horder : history firstAttempt? (reloadSeen (numbered first records)).reverse ++
        (newGeneration settings (numbered first records)).fresh ++
          (newGeneration settings (numbered first records)).reload.duties =
        toAttempt (reloadSeen (numbered first records)).reverse := by
      rw [hattempts, toAttempt_reloadSeen]
      rfl
    refine ⟨fun _ _ ↦ horder, fun _ ↦ horder ▸ List.prefix_rfl, ?_, ?_⟩
    · rw [hattempts]
      exact List.nil_prefix
    · constructor <;> simp [newGeneration]
  later _ h := h
  refuse m targets closed _ ih := by
    refine ⟨?_, ?_, ?_, ih.retried⟩
    · simpa [firstAttempt?] using ih.order
    · simpa [firstAttempt?] using ih.within
    · simpa [firstAttempt?] using ih.attempted
  call m targets isOpen inUse _ ih := by
    refine ⟨?_, ?_, ?_, ⟨ih.retried.sleeping, ih.retried.waiting⟩⟩
    · simpa [Generation.fresh, firstAttempt?] using ih.order
    · simpa [Generation.fresh, firstAttempt?] using ih.within
    · simpa [firstAttempt?] using ih.attempted
  act := by
    rintro w g tr a c - hacts ⟨hquiet, hqueuing, hconsigned, hwritten⟩ ih
    have horder : c.generation.outbox.isOpen = true → c.generation.storing ≠ .cancelled →
        history firstAttempt? (c.seen.reverse ++ tr) ++ c.generation.fresh ++
          c.generation.reload.duties = toAttempt (c.seen.reverse ++ tr) := by
      intro hopen hcancelled
      have hgoesOn : a ≠ .cancel := by
        rintro rfl
        cases hacts
        exact hcancelled rfl
      have hbefore : g.storing ≠ .cancelled := fun hcancelled' ↦
        hcancelled ((hacts.storing_of_finished (by simp [hcancelled', Storing.finished,
          Storing.brokenOff])).trans hcancelled')
      rw [toAttempt_seen hacts, ← ih.order (hacts.outbox_of_closed hopen) hbefore,
        ih.line_seen hacts hgoesOn hopen hqueuing hconsigned hwritten]
    have hwithin : c.generation.outbox.isOpen = true →
        history firstAttempt? (c.seen.reverse ++ tr) ++ c.generation.fresh ++
          c.generation.reload.duties <+: toAttempt (c.seen.reverse ++ tr) := by
      intro hopen
      have hbefore := ih.within (hacts.outbox_of_closed hopen)
      by_cases hgoesOn : a = .cancel
      · subst hgoesOn
        cases hacts with
        | cancel condemned waits =>
          have hcancel := Generation.fresh_of_cancel waits hqueuing ih.retried
          simp only [List.append_assoc] at hbefore ⊢
          exact ((List.prefix_append_right_inj _).2 hcancel).trans hbefore
      · rw [ih.line_seen hacts hgoesOn hopen hqueuing hconsigned hwritten, toAttempt_seen hacts]
        by_cases hcancelled : g.storing = .cancelled
        · -- nothing is forwarded on behalf of submissions any more
          rw [hacts.forwarded_of_cancelled hcancelled hconsigned.ahead_reloaded]
          simpa using hbefore
        · have horder := ih.order (hacts.outbox_of_closed hopen) hcancelled
          exact (congrArg (· ++ _) horder) ▸ List.prefix_rfl
    refine ⟨horder, hwithin, ?_, hacts.retried ih.retried⟩
    cases hopen : c.generation.outbox.isOpen with
    | true =>
      refine List.IsPrefix.trans ?_ (hwithin hopen)
      rw [List.append_assoc]
      exact List.prefix_append _ _
    | false =>
      rw [history_seen, hacts.no_firstAttempt hquiet hopen, List.append_nil, toAttempt_seen hacts]
      exact ih.attempted.trans (List.prefix_append _ _)

section Reached

variable {may : World → Move → Prop} {d : Directory} {db : Store.Database} {w : World} {n : Nat}
  {g : Generation}

/-- What the storing worker has yet to forward is no record. -/
theorem not_reloaded_of_written (hr : Reaches may (initial d db) w)
    (hg : w.generations[n]? = some g) :
    ∀ x ∈ g.storing.consigned, x.ticket ∉ (w.traceOf n).filterMap reloaded? := by
  intro x hx
  refine not_reloaded_of_consigned (traceOf_issued_nodup hr n) (calls_accounted hr hg)
    (in_line hr hg) ?_
  rw [(consigned hr hg).order]
  exact List.mem_append_right _ hx

theorem aligned (hr : Reaches may (initial d db) w) (hg : w.generations[n]? = some g) :
    Aligned g (w.traceOf n) :=
  aligned_invariant.of_reaches (fun _ ↦ trivial)
    (fun hv _ _ hg ↦
      ⟨quiet hv hg, queuing hv hg, consigned hv hg, not_reloaded_of_written hv hg⟩) hr hg

end Reached

end PeerRelay.Delivery
