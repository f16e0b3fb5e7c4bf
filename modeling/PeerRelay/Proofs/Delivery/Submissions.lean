import Mathlib.Data.List.Perm.Subperm
import PeerRelay.Proofs.Delivery.Tickets

/-!
# What becomes of a submission

The ledgers of the calls and of the intake of one generation. Each has a law for one action, in
terms of what is seen of the action, and holds of every run because the laws add up.

Every call is waiting, accepted, refused or abandoned (`calls_accounted`). Everything that was
accepted stands in the intake, is in the hands of the storing worker or was processed, unless the
worker was broken off; what was processed was settled before, and nothing is settled without having
been accepted (`held_accounted`). A worker that is over leaves an empty intake behind
(`ending_of_reaches`).

A ledger counts, as an amount that one place loses is gained by another whatever else is there.
-/

namespace PeerRelay.Delivery

/-! ### Where a submission stands -/

/-- What tells submissions apart, and what they carry. -/
def Submission.key (s : Submission) : Nat × Message :=
  (s.ticket, s.message)

/-- The submission in an entry. -/
def Entry.submission? : Entry → Option Submission
  | .deliver s => some s
  | .stop => none

namespace Observation

/-- The ticket of a call. -/
def called? : Observation → Option Nat
  | .called s => some s.ticket
  | _ => none

/-- The ticket of a reloaded record. -/
def reloaded? : Observation → Option Nat
  | .reloaded ticket _ => some ticket
  | _ => none

def accepted? : Observation → Option Submission
  | .accepted s => some s
  | _ => none

/-- The ticket of a call that ended without being accepted. -/
def failed? : Observation → Option Nat
  | .refused ticket _ => some ticket
  | .abandoned ticket => some ticket
  | _ => none

def processed? : Observation → Option Submission
  | .processed s _ => some s
  | _ => none

/-- The submission that the storing worker dealt with: the store was asked to write it, or it goes
to nobody. -/
def settled? : Observation → Option (Nat × Message)
  | .write ticket m _ _ => some (ticket, m)
  | .processed s [] => some s.key
  | _ => none

end Observation

namespace Storing

/-- What the storing worker took and has not dealt with. -/
def hands : Storing → List Submission
  | .holding s => [s]
  | _ => []

/-- The worker was broken off, and what it was given is lost. -/
def brokenOff (storing : Storing) : Prop :=
  storing = .crashed ∨ storing = .cancelled

/-- The worker is over. -/
def finished (storing : Storing) : Prop :=
  storing = .ended ∨ storing.brokenOff

section

variable (s : Submission) (targets : List Instance)

@[simp] theorem hands_ready : Storing.ready.hands = [] := rfl

@[simp] theorem hands_holding : (Storing.holding s).hands = [s] := rfl

@[simp] theorem hands_written : (Storing.written s targets).hands = [] := rfl

@[simp] theorem hands_waiting : Storing.waiting.hands = [] := rfl

@[simp] theorem hands_stopping : Storing.stopping.hands = [] := rfl

@[simp] theorem hands_ended : Storing.ended.hands = [] := rfl

@[simp] theorem hands_crashed : Storing.crashed.hands = [] := rfl

@[simp] theorem hands_cancelled : Storing.cancelled.hands = [] := rfl

end

end Storing

namespace Generation

/-- The calls that wait, before or in the queue for room in the intake. -/
def calls (g : Generation) : List Nat :=
  g.arriving.map (·.ticket) ++ g.callers.filterMap Entry.ticket?

/-- What was accepted and is not dealt with yet. -/
def held (g : Generation) : List Submission :=
  g.intake.entries.filterMap Entry.submission? ++ g.storing.hands

@[simp] theorem hands_release (g : Generation) (who : Waiter) :
    (g.release who).storing.hands = g.storing.hands := by
  rcases g.release_storing_cases who with ⟨hwaiting, h⟩ | h
  · rw [h, hwaiting]
    rfl
  · rw [h]

/-- The order to stop is no call. -/
theorem filterMap_submitters (g : Generation) :
    g.submitters.filterMap Entry.ticket? = g.callers.filterMap Entry.ticket? := by
  rw [submitters, List.filterMap_filter]
  refine List.filterMap_congr fun entry _ ↦ ?_
  cases entry with
  | deliver s => rfl
  | stop => rfl

/-- Who gives up is gone from those who wait, and nobody else. -/
theorem count_calls_filter (g : Generation) (ticket k : Nat) :
    ((g.arriving.filter (·.ticket ≠ ticket)).map (·.ticket) ++
      (g.callers.filter (·.ticket? ≠ some ticket)).filterMap Entry.ticket?).count k =
      if k = ticket then 0 else g.calls.count k := by
  have hcallers : (g.callers.filter (·.ticket? ≠ some ticket)).filterMap Entry.ticket? =
      (g.callers.filterMap Entry.ticket?).filter (· ≠ ticket) := by
    rw [List.filterMap_filter, List.filter_filterMap]
    refine List.filterMap_congr fun entry _ ↦ ?_
    cases hentry : entry.ticket? with
    | none => simp
    | some t => by_cases ht : t = ticket <;> simp [ht, Option.filter]
  have hcalls : (g.arriving.filter (·.ticket ≠ ticket)).map (·.ticket) ++
      (g.callers.filter (·.ticket? ≠ some ticket)).filterMap Entry.ticket? =
      g.calls.filter (· ≠ ticket) := by
    rw [hcallers, calls, List.filter_append, List.filter_map]
    rfl
  rw [hcalls]
  split
  · rename_i hk
    simp [hk, List.count_eq_zero]
  · rename_i hk
    exact List.count_filter (by simpa using hk)

section Acts

open Observation

variable {w : World} {g : Generation} {a : Action} {c : Change}

/-- An action accepts, refuses or gives up calls that waited, and begins none. -/
theorem Acts.count_calls (h : g.Acts w a c) (k : Nat) (single : g.calls.count k ≤ 1) :
    c.generation.calls.count k + ((c.seen.filterMap accepted?).map (·.ticket)).count k +
      (c.seen.filterMap failed?).count k = g.calls.count k := by
  cases h with
  | arrive s arriving =>
    have hcount := ((List.perm_cons_erase arriving).map (·.ticket)).count_eq k
    simp only [List.map_cons, List.count_cons, beq_iff_eq] at hcount
    simp [calls, Entry.ticket?, List.count_cons]
    omega
  | acceptCall s rest first isOpen =>
    simp [calls, first, accepted?, failed?, Entry.ticket?, List.filterMap_cons, List.count_cons]
    omega
  | refuseCall s rest first isClosed =>
    simp [calls, first, accepted?, failed?, Entry.ticket?, List.filterMap_cons, List.count_cons]
    omega
  | giveUp ticket waits =>
    -- a ticket that waits once is gone altogether when it gives up
    have hwaits : ticket ∈ g.calls := by simpa [calls] using waits
    have hpos := List.count_pos_iff.2 hwaits
    show _ + _ + _ = _
    rw [calls, count_calls_filter]
    by_cases hk : k = ticket
    · subst hk
      simp [accepted?, failed?, List.filterMap_cons]
      omega
    · simp [accepted?, failed?, List.filterMap_cons, hk, Ne.symm hk]
  | finish closed notStopped outcome ended =>
    simp [calls, filterMap_submitters, accepted?, failed?, List.filterMap_cons]
  | expire closed notStopped =>
    simp [calls, filterMap_submitters, accepted?, failed?, List.filterMap_cons]
  | _ =>
    -- nobody joins or leaves those who wait, unless the pipeline is dropped and all of them give up
    simp_all [calls, accepted?, failed?, Entry.ticket?, abortSending, Function.comp_def,
      List.filterMap_cons]

/-- Nothing is processed without having been accepted, and nothing is lost unless the storing worker
is broken off. -/
theorem Acts.count_held (h : g.Acts w a c) (s : Submission) :
    c.generation.held.count s + (c.seen.filterMap processed?).count s ≤
        g.held.count s + (c.seen.filterMap accepted?).count s ∧
      (¬ c.generation.storing.brokenOff →
        c.generation.held.count s + (c.seen.filterMap processed?).count s =
          g.held.count s + (c.seen.filterMap accepted?).count s) := by
  cases h with
  | acceptCall s' rest first isOpen =>
    simp [held, Queue.push, accepted?, processed?, Entry.submission?, List.filterMap_cons,
      List.count_cons]
    omega
  | forward s' targets written p parcel storing waits =>
    -- the submission was processed when it was written, and is not in hand any more
    have hhands : storing.hands = [] := by
      rw [waits]
      split <;> rfl
    simp [held, written, hhands, accepted?, processed?, List.filterMap_cons]
  | _ =>
    simp_all [held, accepted?, processed?, Entry.submission?, abortSending, Function.comp_def,
      List.filterMap_cons, List.count_cons, Queue.push, Queue.abandon, Storing.brokenOff]

/-- Nothing is settled without having been accepted. -/
theorem Acts.count_settled (h : g.Acts w a c) (x : Nat × Message) :
    (c.generation.held.map (·.key)).count x + (c.seen.filterMap settled?).count x ≤
      (g.held.map (·.key)).count x + ((c.seen.filterMap accepted?).map (·.key)).count x := by
  cases h with
  | acceptCall s' rest first isOpen =>
    simp [held, Queue.push, accepted?, settled?, Entry.submission?, List.filterMap_cons,
      List.count_cons]
    omega
  | storeFails s call holding somebody =>
    simp [held, holding, accepted?, settled?, List.filterMap_cons, List.count_cons, somebody,
      Submission.key]
  | storeWorks s record db holding somebody written =>
    obtain ⟨rfl, -⟩ := Store.write_eq_ok written
    simp [held, holding, accepted?, settled?, List.filterMap_cons, List.count_cons, Submission.key,
      Function.comp_def, Store.distinctByUri_ne_nil somebody]
  | forward s' targets written p parcel storing waits =>
    have hhands : storing.hands = [] := by
      rw [waits]
      split <;> rfl
    simp [held, written, hhands, accepted?, settled?, List.filterMap_cons]
  | _ =>
    simp_all [held, accepted?, settled?, Entry.submission?, abortSending, Function.comp_def,
      List.filterMap_cons, List.count_cons, Queue.push, Queue.abandon, Submission.key]

/-- What is processed is settled, and what is settled is processed unless the storing worker is
broken off. -/
theorem Acts.count_processed (h : g.Acts w a c) (x : Nat × Message) :
    ((c.seen.filterMap processed?).map (·.key)).count x ≤ (c.seen.filterMap settled?).count x ∧
      (¬ c.generation.storing.brokenOff →
        ((c.seen.filterMap processed?).map (·.key)).count x =
          (c.seen.filterMap settled?).count x) := by
  cases h with
  | storeFails s call holding somebody =>
    simp [processed?, settled?, List.filterMap_cons, somebody, Submission.key]
  | storeWorks s record db holding somebody written =>
    obtain ⟨rfl, -⟩ := Store.write_eq_ok written
    simp [processed?, settled?, List.filterMap_cons, Submission.key, Function.comp_def,
      Store.distinctByUri_ne_nil somebody]
  | _ =>
    simp_all [processed?, settled?, Function.comp_def, List.filterMap_cons, Storing.brokenOff,
      Submission.key]

/-- A worker that is over stays so. -/
theorem Acts.storing_of_finished (h : g.Acts w a c) (hfinished : g.storing.finished) :
    c.generation.storing = g.storing := by
  have hready : g.storing ≠ .ready := by
    intro hready
    simp [hready, Storing.finished, Storing.brokenOff] at hfinished
  have hwaiting : g.storing ≠ .waiting := by
    intro hwaiting
    simp [hwaiting, Storing.finished, Storing.brokenOff] at hfinished
  cases h with
  | enter who p rest first isOpen =>
    rcases release_storing_cases { g with waiting := rest, outbox := g.outbox.push p } who with
      ⟨hwaits, -⟩ | hsame
    · exact absurd hwaits hwaiting
    · exact hsame
  | enterClosed who p rest first isClosed =>
    rcases release_storing_cases { g with waiting := rest } who with ⟨hwaits, -⟩ | hsame
    · exact absurd hwaits hwaiting
    · exact hsame
  | cancel condemned waits => exact absurd waits (by simp [hready, hwaiting])
  | _ => simp_all [Storing.finished, Storing.brokenOff, abortSending]

theorem brokenOff_release {who : Waiter} :
    (g.release who).storing.brokenOff ↔ g.storing.brokenOff := by
  rcases g.release_storing_cases who with ⟨hwaiting, hready⟩ | hsame
  · simp [hready, hwaiting, Storing.brokenOff]
  · rw [hsame]

theorem finished_release {who : Waiter} :
    (g.release who).storing.finished ↔ g.storing.finished := by
  rcases g.release_storing_cases who with ⟨hwaiting, hready⟩ | hsame
  · simp [hready, hwaiting, Storing.finished, Storing.brokenOff]
  · rw [hsame]

/-- A worker leaves its intake empty, and nothing enters it afterwards. -/
theorem Acts.empty_of_finished (h : g.Acts w a c)
    (empty : g.storing.finished → g.intake.isOpen = false ∧ g.intake.entries = [])
    (hfinished : c.generation.storing.finished) :
    c.generation.intake.isOpen = false ∧ c.generation.intake.entries = [] := by
  cases h with
  | forward s targets written p parcel storing waits =>
    have hnot : ¬ storing.finished := by
      rw [waits]
      split <;> simp [Storing.finished, Storing.brokenOff]
    exact absurd hfinished hnot
  | enter who p rest first isOpen =>
    rw [finished_release] at hfinished
    rw [release_intake]
    exact empty hfinished
  | enterClosed who p rest first isClosed =>
    rw [finished_release] at hfinished
    rw [release_intake]
    exact empty hfinished
  | _ =>
    simp_all [Storing.finished, Storing.brokenOff, Queue.abandon, abortSending]

/-- A shutdown says that everything was stored only when the storing worker ended. -/
theorem Acts.drained_of_seen (h : g.Acts w a c) (drained : .stopped .drained ∈ c.seen) :
    c.generation.storing = .ended := by
  cases h with
  | finish closed notStopped outcome ended =>
    rcases ended with ⟨hended, -⟩ | ⟨-, rfl⟩
    · exact hended
    · simp at drained
  | _ => simp at drained

theorem Acts.closing_or_closed (h : g.Acts w a c) :
    .closing ∈ c.seen ∨ g.closed = true ↔ c.generation.closed = true := by
  cases h with
  | _ => simp_all [abortSending]

end Acts

end Generation

/-! ### Over a run -/

open Observation World

/-- Every call waits, was accepted, or failed. -/
def CallsAccounted (g : Generation) (tr : List Observation) : Prop :=
  ∀ k, g.calls.count k + ((tr.filterMap accepted?).map (·.ticket)).count k +
    (tr.filterMap failed?).count k = (tr.filterMap called?).count k

/-- What was accepted is held or was processed, and what was processed was settled. Only a worker
that is broken off leaves anything out. -/
structure HeldAccounted (g : Generation) (tr : List Observation) : Prop where
  settled : ∀ x, (g.held.map (·.key)).count x + (tr.filterMap settled?).count x ≤
    ((tr.filterMap accepted?).map (·.key)).count x
  processed_le : ∀ x,
    ((tr.filterMap processed?).map (·.key)).count x ≤ (tr.filterMap settled?).count x
  processed : ¬ g.storing.brokenOff → ∀ x,
    ((tr.filterMap processed?).map (·.key)).count x = (tr.filterMap settled?).count x
  held : ¬ g.storing.brokenOff → ∀ s,
    g.held.count s + (tr.filterMap processed?).count s = (tr.filterMap accepted?).count s

/-- What is left of a worker that is over, and what a shutdown said of it. -/
structure Ending (g : Generation) (tr : List Observation) : Prop where
  empty : g.storing.finished → g.intake.isOpen = false ∧ g.intake.entries = []
  drained : .stopped .drained ∈ tr → g.storing = .ended
  closing : .closing ∈ tr ↔ g.closed = true

/-- A ticket is issued for a call or for a record. -/
theorem count_issued (tr : List Observation) (k : Nat) :
    (tr.filterMap issued?).count k = (tr.filterMap called?).count k +
      (tr.filterMap reloaded?).count k := by
  induction tr with
  | nil => rfl
  | cons o tr ih =>
    cases o <;> simp [issued?, called?, reloaded?, List.filterMap_cons, List.count_cons, ih] <;>
      omega

/-- A call has a ticket of its own. -/
theorem count_called_le {tr : List Observation} (h : (tr.filterMap issued?).Nodup) (k : Nat) :
    (tr.filterMap called?).count k ≤ 1 := by
  have hissued := List.nodup_iff_count_le_one.1 h k
  rw [count_issued] at hissued
  omega

/-- An action begins no call. -/
theorem called?_of_acts {w : World} {g : Generation} {a : Action} {c : Change}
    (h : g.Acts w a c) : c.seen.filterMap called? = [] := by
  refine List.filterMap_eq_nil_iff.2 fun o ho ↦ ?_
  have hissued := issued?_of_acts h o ho
  cases o <;> first | rfl | cases hissued

theorem callsAccounted_invariant :
    LocalInvariant (fun _ ↦ True) (fun _ _ tr ↦ (tr.filterMap issued?).Nodup)
      (fun _ g tr ↦ CallsAccounted g tr) where
  start first settings records := by
    intro k
    simp [Generation.calls, newGeneration, reloadSeen, accepted?, failed?, called?,
      List.filterMap_reverse, Function.comp_def]
  later _ h := h
  refuse m targets closed known ih := by
    intro k
    have hk := ih k
    simp [accepted?, failed?, called?, List.filterMap_cons, List.count_cons]
    omega
  call m targets isOpen inUse known ih := by
    intro k
    have hk := ih k
    simp [Generation.calls, accepted?, failed?, called?, List.filterMap_cons,
      List.count_cons] at hk ⊢
    omega
  act := by
    intro w g tr a c _ hacts known ih k
    have hk := ih k
    have hsingle := count_called_le known k
    have hstep := hacts.count_calls k (by omega)
    have hnone := called?_of_acts hacts
    rw [count_map_seen, count_filterMap_seen, count_filterMap_seen, hnone, List.count_nil]
    omega

theorem heldAccounted_invariant :
    LocalInvariant (fun _ ↦ True) (fun _ _ _ ↦ True) (fun _ g tr ↦ HeldAccounted g tr) where
  start first settings records := by
    constructor <;>
      simp [Generation.held, newGeneration, reloadSeen, Queue.make, accepted?, processed?,
        settled?, List.filterMap_reverse, Function.comp_def]
  later _ h := h
  refuse m targets closed _ ih := ⟨ih.settled, ih.processed_le, ih.processed, ih.held⟩
  call m targets isOpen inUse _ ih := ⟨ih.settled, ih.processed_le, ih.processed, ih.held⟩
  act := by
    intro w g tr a c _ hacts _ ih
    -- a worker that was broken off does not recover, so the exact part applies before the action
    have hkept : ¬ c.generation.storing.brokenOff → ¬ g.storing.brokenOff := by
      intro hnot hbroken
      rw [hacts.storing_of_finished (Or.inr hbroken)] at hnot
      exact hnot hbroken
    refine ⟨fun x ↦ ?_, fun x ↦ ?_, fun hnot x ↦ ?_, fun hnot s ↦ ?_⟩
    · have hstep := hacts.count_settled x
      have hx := ih.settled x
      rw [count_filterMap_seen, count_map_seen]
      omega
    · have hstep := (hacts.count_processed x).1
      have hx := ih.processed_le x
      rw [count_map_seen, count_filterMap_seen]
      omega
    · have hstep := (hacts.count_processed x).2 hnot
      have hx := ih.processed (hkept hnot) x
      rw [count_map_seen, count_filterMap_seen]
      omega
    · have hstep := (hacts.count_held s).2 hnot
      have hs := ih.held (hkept hnot) s
      rw [count_filterMap_seen, count_filterMap_seen]
      omega

theorem ending_invariant :
    LocalInvariant (fun _ ↦ True) (fun _ _ _ ↦ True) (fun _ g tr ↦ Ending g tr) where
  start first settings records := by
    constructor <;> simp [newGeneration, reloadSeen, Storing.finished, Storing.brokenOff]
  later _ h := h
  refuse m targets closed _ ih := by
    refine ⟨ih.empty, ?_, ?_⟩
    · simpa using ih.drained
    · simpa using ih.closing
  call m targets isOpen inUse _ ih := by
    refine ⟨ih.empty, ?_, ?_⟩
    · simpa using ih.drained
    · simpa using ih.closing
  act := by
    intro w g tr a c _ hacts _ ih
    refine ⟨fun hfinished ↦ hacts.empty_of_finished ih.empty hfinished, fun hdrained ↦ ?_, ?_⟩
    · rw [List.mem_append, List.mem_reverse] at hdrained
      rcases hdrained with hnow | hbefore
      · exact hacts.drained_of_seen hnow
      · rw [hacts.storing_of_finished (Or.inl (ih.drained hbefore)), ih.drained hbefore]
    · rw [List.mem_append, List.mem_reverse, ih.closing]
      exact hacts.closing_or_closed

/-- A call that is made after a shutdown began is refused at once. -/
def LateRefused (tr : List Observation) : Prop :=
  ∀ before s after, tr = after ++ .called s :: before → .closing ∈ before →
    .refused s.ticket (.shutDown s.message.id) ∈ after

theorem lateRefused_invariant :
    LocalInvariant (fun _ ↦ True) (fun _ g tr ↦ Ending g tr)
      (fun _ _ tr ↦ LateRefused tr) where
  start first settings records := by
    intro before s after htr hclosing
    have hmem : Observation.closing ∈ (reloadSeen (numbered first records)).reverse := by
      rw [htr]
      exact List.mem_append_right _ (List.mem_cons_of_mem _ hclosing)
    simp [reloadSeen] at hmem
  later _ h := h
  refuse m targets closed _ ih := by
    intro before s after htr hclosing
    rcases after with - | ⟨o, - | ⟨o', after⟩⟩
    · cases htr
    · cases htr
      exact List.mem_cons_self
    · obtain ⟨-, htr⟩ := List.cons.inj htr
      obtain ⟨-, htr⟩ := List.cons.inj htr
      exact List.mem_cons_of_mem _ (List.mem_cons_of_mem _ (ih before s after htr hclosing))
  call m targets isOpen inUse hending ih := by
    intro before s after htr hclosing
    rcases after with - | ⟨o, after⟩
    · -- the call itself found the pipeline open
      obtain ⟨-, rfl⟩ := List.cons.inj htr
      rw [hending.closing, isOpen] at hclosing
      contradiction
    · obtain ⟨-, htr⟩ := List.cons.inj htr
      exact List.mem_cons_of_mem _ (ih before s after htr hclosing)
  act := by
    intro w g tr a c _ hacts _ ih before s after htr hclosing
    rcases List.append_eq_append_iff.1 htr with ⟨later, rfl, htail⟩ | ⟨rest, hseen, hrest⟩
    · exact List.mem_append_right _ (ih before s later htail hclosing)
    · rcases rest with - | ⟨o, rest⟩
      · rw [List.nil_append] at hrest
        have hnil := ih before s [] hrest.symm hclosing
        exact absurd hnil List.not_mem_nil
      · -- no action begins a call
        obtain ⟨rfl, -⟩ := List.cons.inj hrest
        have hmem : Observation.called s ∈ c.seen := by
          rw [← List.mem_reverse, hseen]
          exact List.mem_append_right _ List.mem_cons_self
        have hissued := issued?_of_acts hacts _ hmem
        cases hissued

theorem HeldAccounted.settled_of_processed {g : Generation} {tr : List Observation}
    (h : HeldAccounted g tr) {s : Submission} {targets : List Instance}
    (hs : .processed s targets ∈ tr) : s.key ∈ tr.filterMap settled? := by
  have hprocessed : s.key ∈ (tr.filterMap processed?).map (·.key) :=
    List.mem_map_of_mem (List.mem_filterMap.2 ⟨_, hs, rfl⟩)
  have hpos := List.count_pos_iff.2 hprocessed
  have hle := h.processed_le s.key
  exact List.count_pos_iff.1 (by omega)

/-- What was settled was accepted, as often as it was settled. -/
theorem HeldAccounted.settled_subperm {g : Generation} {tr : List Observation}
    (h : HeldAccounted g tr) :
    (tr.filterMap settled?).Subperm ((tr.filterMap accepted?).map (·.key)) := by
  refine List.subperm_ext_iff.2 fun x _ ↦ ?_
  have hx := h.settled x
  omega

/-- Under no ticket was more processed than accepted. -/
theorem HeldAccounted.count_processed_le {g : Generation} {tr : List Observation}
    (h : HeldAccounted g tr) (k : Nat) :
    ((tr.filterMap processed?).map (·.ticket)).count k ≤
      ((tr.filterMap accepted?).map (·.ticket)).count k := by
  have hsettled : ((tr.filterMap processed?).map (·.key)).Subperm (tr.filterMap settled?) :=
    List.subperm_ext_iff.2 fun x _ ↦ h.processed_le x
  have hkeys := (hsettled.trans h.settled_subperm).countP_le fun key ↦ key.1 == k
  rw [List.countP_map, List.countP_map] at hkeys
  rw [List.count_eq_countP, List.count_eq_countP, List.countP_map, List.countP_map]
  exact hkeys

theorem HeldAccounted.accepted_of_settled {g : Generation} {tr : List Observation}
    (h : HeldAccounted g tr) {x : Nat × Message} (hx : x ∈ tr.filterMap settled?) :
    ∃ s, .accepted s ∈ tr ∧ s.key = x := by
  have hpos := List.count_pos_iff.2 hx
  have hle := h.settled x
  have hmem : x ∈ (tr.filterMap accepted?).map (·.key) := List.count_pos_iff.1 (by omega)
  obtain ⟨s, hs, hkey⟩ := List.mem_map.1 hmem
  obtain ⟨o, ho, hos⟩ := List.mem_filterMap.1 hs
  cases o <;> cases hos
  exact ⟨s, ho, hkey⟩

/-! ### In a world that is reached -/

section Reached

variable {may : World → Move → Prop} {d : Directory} {db : Store.Database} {w : World} {n : Nat}
  {g : Generation}

theorem calls_accounted (hr : Reaches may (initial d db) w) (hg : w.generations[n]? = some g) :
    CallsAccounted g (w.traceOf n) :=
  callsAccounted_invariant.of_reaches (fun _ ↦ trivial)
    (fun hv _ _ _ ↦ traceOf_issued_nodup hv _) hr hg

theorem held_accounted (hr : Reaches may (initial d db) w) (hg : w.generations[n]? = some g) :
    HeldAccounted g (w.traceOf n) :=
  heldAccounted_invariant.of_reaches (fun _ ↦ trivial) (fun _ _ _ _ ↦ trivial) hr hg

/-- A submission is accepted once at most. -/
theorem count_accepted_le (hr : Reaches may (initial d db) w) (hg : w.generations[n]? = some g)
    (k : Nat) : (((w.traceOf n).filterMap accepted?).map (·.ticket)).count k ≤ 1 := by
  have hcalls := calls_accounted hr hg k
  have hcalled := count_called_le (traceOf_issued_nodup hr n) k
  omega

theorem accepted_nodup (hr : Reaches may (initial d db) w) (hg : w.generations[n]? = some g) :
    ((w.traceOf n).filterMap accepted?).Nodup :=
  List.Nodup.of_map _ (List.nodup_iff_count_le_one.2 (count_accepted_le hr hg))

theorem acceptedKeys_nodup (hr : Reaches may (initial d db) w)
    (hg : w.generations[n]? = some g) :
    (((w.traceOf n).filterMap accepted?).map (·.key)).Nodup := by
  refine List.Nodup.of_map Prod.fst ?_
  rw [List.map_map]
  exact List.nodup_iff_count_le_one.2 (count_accepted_le hr hg)

/-- What was accepted is held or was processed. -/
theorem accepted_perm (hr : Reaches may (initial d db) w) (hg : w.generations[n]? = some g)
    (hwhole : ¬ g.storing.brokenOff) :
    ((w.traceOf n).filterMap accepted?).Perm (g.held ++ (w.traceOf n).filterMap processed?) := by
  refine List.perm_iff_count.2 fun s ↦ ?_
  have hs := (held_accounted hr hg).held hwhole s
  rw [List.count_append, hs]

theorem ending_of_reaches (hr : Reaches may (initial d db) w) (hg : w.generations[n]? = some g) :
    Ending g (w.traceOf n) :=
  ending_invariant.of_reaches (fun _ ↦ trivial) (fun _ _ _ _ ↦ trivial) hr hg

theorem late_refused (hr : Reaches may (initial d db) w) (hg : w.generations[n]? = some g) :
    LateRefused (w.traceOf n) :=
  lateRefused_invariant.of_reaches (fun _ ↦ trivial) (fun hv _ _ hg ↦ ending_of_reaches hv hg) hr
    hg

/-- Whatever was seen was seen of a generation. -/
theorem exists_generation {o : Observation} (hr : Reaches may (initial d db) w)
    (ho : (n, o) ∈ w.trace) : ∃ g, w.generations[n]? = some g :=
  ⟨_, List.getElem?_eq_getElem (lt_length_of_mem_trace hr _ ho)⟩

/-- Who was accepted or failed was called before. -/
theorem called_of_count {k : Nat} (hr : Reaches may (initial d db) w)
    (hg : w.generations[n]? = some g)
    (hpos : 0 < (((w.traceOf n).filterMap accepted?).map (·.ticket)).count k +
      ((w.traceOf n).filterMap failed?).count k) :
    ∃ s, (n, .called s) ∈ w.trace ∧ s.ticket = k := by
  have hcalls := calls_accounted hr hg k
  have hmem : k ∈ (w.traceOf n).filterMap called? := List.count_pos_iff.1 (by omega)
  obtain ⟨o, ho, hk⟩ := List.mem_filterMap.1 hmem
  cases o <;> cases hk
  exact ⟨_, mem_traceOf.1 ho, rfl⟩

theorem mem_accepted {s : Submission} :
    s ∈ (w.traceOf n).filterMap accepted? ↔ (n, .accepted s) ∈ w.trace := by
  rw [← mem_traceOf, List.mem_filterMap]
  constructor
  · rintro ⟨o, ho, hs⟩
    cases o <;> cases hs
    exact ho
  · intro hs
    exact ⟨_, hs, rfl⟩

theorem called_of_accepted {s : Submission} (hr : Reaches may (initial d db) w)
    (hs : (n, .accepted s) ∈ w.trace) : ∃ s', (n, .called s') ∈ w.trace ∧ s'.ticket = s.ticket := by
  obtain ⟨g, hg⟩ := exists_generation hr hs
  refine called_of_count hr hg (Nat.add_pos_left (List.count_pos_iff.2 ?_) _)
  exact List.mem_map_of_mem (mem_accepted.2 hs)

/-- A ticket is accepted once, in one generation and for one submission. -/
theorem accepted_unique {n' : Nat} {s s' : Submission} (hr : Reaches may (initial d db) w)
    (hs : (n, .accepted s) ∈ w.trace) (hs' : (n', .accepted s') ∈ w.trace)
    (hticket : s.ticket = s'.ticket) : n = n' ∧ s = s' := by
  obtain ⟨c, hc, hck⟩ := called_of_accepted hr hs
  obtain ⟨c', hc', hck'⟩ := called_of_accepted hr hs'
  have hentry := eq_of_issued hr hc hc' (congrArg some (hck.trans hticket)) (congrArg some hck')
  obtain rfl : n = n' := congrArg Prod.fst hentry
  obtain ⟨g, hg⟩ := exists_generation hr hs
  have hnodup := List.nodup_iff_count_le_one.2 (count_accepted_le hr hg)
  exact ⟨rfl, List.inj_on_of_nodup_map hnodup (mem_accepted.2 hs) (mem_accepted.2 hs') hticket⟩

/-- A failure is counted under its ticket. -/
theorem count_failed_pos {k : Nat} {o : Observation} (ho : (n, o) ∈ w.trace)
    (hk : o.failed? = some k) : 0 < ((w.traceOf n).filterMap failed?).count k :=
  List.count_pos_iff.2 (List.mem_filterMap.2 ⟨o, mem_traceOf.2 ho, hk⟩)

theorem called_of_failed {k : Nat} {o : Observation} (hr : Reaches may (initial d db) w)
    (ho : (n, o) ∈ w.trace) (hk : o.failed? = some k) :
    ∃ s, (n, .called s) ∈ w.trace ∧ s.ticket = k := by
  obtain ⟨g, hg⟩ := exists_generation hr ho
  exact called_of_count hr hg (Nat.add_pos_right _ (count_failed_pos ho hk))

/-- A call that failed is not accepted, in its generation or in another one. -/
theorem not_accepted_of_failed {k : Nat} {o : Observation} (hr : Reaches may (initial d db) w)
    (ho : (n, o) ∈ w.trace) (hk : o.failed? = some k) :
    ∀ n' s, (n', .accepted s) ∈ w.trace → s.ticket ≠ k := by
  intro n' s hs hticket
  obtain ⟨c, hc, hck⟩ := called_of_failed hr ho hk
  obtain ⟨c', hc', hck'⟩ := called_of_accepted hr hs
  have hentry := eq_of_issued hr hc hc' (congrArg some hck) (congrArg some (hck'.trans hticket))
  obtain rfl : n = n' := congrArg Prod.fst hentry
  have hfailed := count_failed_pos ho hk
  have haccepted : 0 < (((w.traceOf n).filterMap accepted?).map (·.ticket)).count k :=
    List.count_pos_iff.2 (List.mem_map.2 ⟨s, mem_accepted.2 hs, hticket⟩)
  obtain ⟨g, hg⟩ := exists_generation hr ho
  have hcalls := calls_accounted hr hg k
  have hcalled := count_called_le (traceOf_issued_nodup hr n) k
  omega

/-- What was settled in a generation was accepted there. -/
theorem accepted_of_settled {o : Observation} {x : Nat × Message}
    (hr : Reaches may (initial d db) w) (ho : (n, o) ∈ w.trace) (hx : o.settled? = some x) :
    ∃ s, (n, .accepted s) ∈ w.trace ∧ s.key = x := by
  obtain ⟨g, hg⟩ := exists_generation hr ho
  obtain ⟨s, hs, hkey⟩ := (held_accounted hr hg).accepted_of_settled
    (List.mem_filterMap.2 ⟨o, mem_traceOf.2 ho, hx⟩)
  exact ⟨s, mem_traceOf.1 hs, hkey⟩

/-- A submission is settled in the generation in which it was accepted. -/
theorem count_settled {s : Submission} (hr : Reaches may (initial d db) w)
    (hs : (n, .accepted s) ∈ w.trace) :
    (w.trace.filterMap (·.2.settled?)).count s.key =
      ((w.traceOf n).filterMap settled?).count s.key := by
  have hgeneration : ∀ entry ∈ w.trace, entry.2.settled? = some s.key → entry.1 = n := by
    intro entry hentry hkey
    obtain ⟨s', hs', hkey'⟩ := accepted_of_settled hr hentry hkey
    exact (accepted_unique hr hs' hs (congrArg Prod.fst hkey')).1
  exact count_seenOf hgeneration

end Reached

end PeerRelay.Delivery
