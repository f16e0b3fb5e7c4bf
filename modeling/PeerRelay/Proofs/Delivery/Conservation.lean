import PeerRelay.Proofs.Delivery.Duties

/-!
# Nothing is lost while the pipeline runs

While a generation is neither shut down nor dropped, and no call breaks a worker off, the ledgers of
submissions and of duties are exact (`Whole` names what makes them so): what was accepted is in the
intake, in the hands of the storing worker or processed, and what became due is pending, delivered
or given up. Tickets sort the duties by where they come from, so that the ledger is exact for each
submission and each reloaded record by itself (`obligations_kept`).
-/

namespace PeerRelay.Delivery

open Observation World

/-! ### Without a break-off -/

/-- No call breaks its worker off. -/
def Action.calm : Action → Bool
  | .store .crashes => false
  | .answer .crashes => false
  | .forget .crashes => false
  | _ => true

/-- No move breaks a worker off. -/
def Calm (_ : World) (m : Move) : Prop :=
  ∀ n a, m = .act n a → a.calm = true

instance (w : World) (m : Move) : Decidable (Calm w m) :=
  match m with
  | .act n a => decidable_of_iff (a.calm = true)
      ⟨fun h _ _ heq ↦ by cases heq; exact h, fun h ↦ h n a rfl⟩
  | .start _ _ | .submit _ _ _ | .tick _ | .register _ | .unregister _ =>
    .isTrue fun _ _ heq ↦ Move.noConfusion heq

/-- A generation that was neither shut down nor dropped is whole. -/
structure Whole (g : Generation) : Prop where
  condemned : g.condemned = true → g.closed = true
  stopped : g.stopped = true → g.closed = true ∨ g.dropped = true
  outbox : g.closed = false → g.dropped = false → g.outbox.isOpen = true
  storing : g.closed = false → ¬ g.storing.brokenOff

namespace Generation.Acts

variable {w : World} {g : Generation} {a : Action} {c : Change}

theorem closed_of_condemned (h : g.Acts w a c) (hg : g.condemned = true → g.closed = true) :
    c.generation.condemned = true → c.generation.closed = true := by
  cases h with
  | _ => simp_all [abortSending]

/-- Only a shutdown and a drop tell the workers to stop. -/
theorem closed_of_stopped (h : g.Acts w a c)
    (hg : g.stopped = true → g.closed = true ∨ g.dropped = true) :
    c.generation.stopped = true → c.generation.closed = true ∨ c.generation.dropped = true := by
  cases h with
  | _ => simp_all [abortSending]

theorem outbox_open (h : g.Acts w a c) (calm : a.calm = true)
    (stopped : g.stopped = true → g.closed = true ∨ g.dropped = true)
    (hg : g.closed = false → g.dropped = false → g.outbox.isOpen = true) :
    c.generation.closed = false → c.generation.dropped = false →
      c.generation.outbox.isOpen = true := by
  cases h with
  | callCrashes p ahead target calling => contradiction
  | forgetCrashes p ahead target leaving => contradiction
  | halt isStopped waits =>
    intro running inUse
    rcases stopped isStopped with hclosed | hdropped
    · exact absurd (running.symm.trans hclosed) Bool.false_ne_true
    · exact absurd (inUse.symm.trans hdropped) Bool.false_ne_true
  | _ => simp_all [Queue.push]

theorem storing_whole (h : g.Acts w a c) (calm : a.calm = true)
    (condemned : g.condemned = true → g.closed = true)
    (hg : g.closed = false → ¬ g.storing.brokenOff) :
    c.generation.closed = false → ¬ c.generation.storing.brokenOff := by
  cases h with
  | storeCrashes s holding somebody => contradiction
  | forward s targets written p parcel storing waits =>
    intro _
    rw [waits]
    split <;> simp [Storing.brokenOff]
  | enter who p rest first isOpen => simpa [brokenOff_release] using hg
  | enterClosed who p rest first isClosed => simpa [brokenOff_release] using hg
  | cancel isCondemned waits => simp_all
  | _ => simp_all [Storing.brokenOff, abortSending]

end Generation.Acts

theorem whole_invariant :
    LocalInvariant (·.calm = true) (fun _ _ _ ↦ True) (fun _ g _ ↦ Whole g) where
  start first settings records := by
    constructor <;> simp [newGeneration, Queue.make, Storing.brokenOff]
  later _ h := h
  refuse m targets closed _ ih := ih
  call m targets isOpen inUse _ ih := ⟨ih.condemned, ih.stopped, ih.outbox, ih.storing⟩
  act := by
    intro w g tr a c hcalm hacts _ ih
    exact ⟨hacts.closed_of_condemned ih.condemned, hacts.closed_of_stopped ih.stopped,
      hacts.outbox_open hcalm ih.stopped ih.outbox,
      hacts.storing_whole hcalm ih.condemned ih.storing⟩

theorem whole {d : Directory} {db : Store.Database} {w : World} {n : Nat} {g : Generation}
    (hr : Reaches Calm (initial d db) w) (hg : w.generations[n]? = some g) : Whole g :=
  whole_invariant.of_reaches (fun h ↦ h _ _ rfl) (fun _ _ _ _ ↦ trivial) hr hg

/-! ### Where a duty comes from -/

/-- The ticket under which duties arise. -/
def Observation.origin? : Observation → Option Nat
  | .processed s _ => some s.ticket
  | .reloaded ticket _ => some ticket
  | _ => none

theorem ticket_of_due {o : Observation} {x : Duty} (hx : x ∈ o.due) :
    o.origin? = some x.ticket := by
  cases o with
  | processed s targets =>
    obtain ⟨i, -, rfl⟩ := List.mem_map.1 hx
    rfl
  | reloaded k record =>
    obtain ⟨i, -, rfl⟩ := List.mem_map.1 hx
    rfl
  | _ => cases hx

theorem count_origin (tr : List Observation) (k : Nat) :
    (tr.filterMap origin?).count k = ((tr.filterMap processed?).map (·.ticket)).count k +
      (tr.filterMap reloaded?).count k := by
  induction tr with
  | nil => rfl
  | cons o tr ih =>
    cases o <;> simp [origin?, processed?, reloaded?, List.filterMap_cons, List.count_cons, ih] <;>
      omega

theorem filter_due_of_origin {o : Observation} {k : Nat} (hk : o.origin? = some k) :
    o.due.filter (·.ticket = k) = o.due := by
  refine List.filter_eq_self.2 fun x hx ↦ ?_
  have hticket := ticket_of_due hx
  rw [hk, Option.some.injEq] at hticket
  simp [hticket]

theorem filter_due_of_ne {o : Observation} {k : Nat} (hk : o.origin? ≠ some k) :
    o.due.filter (·.ticket = k) = [] := by
  refine List.filter_eq_nil_iff.2 fun x hx hticket ↦ hk ?_
  rw [ticket_of_due hx, of_decide_eq_true hticket]

/-- The duties of one ticket are those that arose with one observation. -/
theorem filter_due {tr : List Observation} (hnodup : (tr.filterMap origin?).Nodup)
    {o : Observation} (ho : o ∈ tr) {k : Nat} (hk : o.origin? = some k) :
    (tr.flatMap due).filter (·.ticket = k) = o.due := by
  induction tr with
  | nil => exact absurd ho List.not_mem_nil
  | cons o' tr ih =>
    have htail : (tr.filterMap origin?).Nodup :=
      hnodup.sublist (List.Sublist.filterMap _ (List.sublist_cons_self o' tr))
    rw [List.flatMap_cons, List.filter_append]
    by_cases hk' : o'.origin? = some k
    · rw [List.filterMap_cons_some hk', List.nodup_cons] at hnodup
      have hnone : (tr.flatMap due).filter (·.ticket = k) = [] := by
        rw [List.filter_flatMap, List.flatMap_eq_nil_iff]
        intro o'' ho''
        exact filter_due_of_ne fun heq ↦ hnodup.1 (List.mem_filterMap.2 ⟨o'', ho'', heq⟩)
      rcases List.mem_cons.1 ho with rfl | htl
      · rw [hnone, List.append_nil, filter_due_of_origin hk]
      · exact absurd (List.mem_filterMap.2 ⟨o, htl, hk⟩) hnodup.1
    · have htl : o ∈ tr := (List.mem_cons.1 ho).resolve_left fun heq ↦ hk' (heq ▸ hk)
      rw [filter_due_of_ne hk', List.nil_append, ih htail htl]

section Reached

variable {may : World → Move → Prop} {d : Directory} {db : Store.Database} {w : World} {n : Nat}
  {g : Generation}

/-- The ticket of a submission that was processed is not processed again, and no record has it. -/
theorem origin_nodup (hr : Reaches may (initial d db) w) (hg : w.generations[n]? = some g) :
    ((w.traceOf n).filterMap origin?).Nodup := by
  refine List.nodup_iff_count_le_one.2 fun k ↦ ?_
  have hissued := List.nodup_iff_count_le_one.1 (traceOf_issued_nodup hr n) k
  rw [count_issued] at hissued
  have hcalls := calls_accounted hr hg k
  have hprocessed := (held_accounted hr hg).count_processed_le k
  rw [count_origin]
  omega

/-- **While a pipeline runs, no obligation is lost and none is duplicated.** Calls of the store and
of the peers may succeed or fail in any way, as long as they come to an end. What was accepted is in
exactly one of three places; the duties that arose are, as often as they arose, pending in one
place, delivered, or given up; and so it is for each submission and each reloaded record by itself.
-/
theorem obligations_kept (hr : Reaches Calm (initial d db) w) (hg : w.generations[n]? = some g)
    (running : g.closed = false) (inUse : g.dropped = false) :
    (((w.traceOf n).filterMap accepted?).Nodup ∧
      ((w.traceOf n).filterMap accepted?).Perm
        (g.intake.entries.filterMap Entry.submission? ++ g.storing.hands ++
          (w.traceOf n).filterMap processed?)) ∧
    ((w.traceOf n).flatMap due).Perm
      (g.pending ++ (w.traceOf n).filterMap delivered? ++ (w.traceOf n).filterMap dropped?) ∧
    ∀ o ∈ w.traceOf n, ∀ k, o.origin? = some k →
      o.due.Perm ((g.pending ++ (w.traceOf n).filterMap delivered? ++
        (w.traceOf n).filterMap dropped?).filter (·.ticket = k)) := by
  have hwhole := whole hr hg
  have hstoring := hwhole.storing running
  -- only a shutdown whose time is over condemns the storing worker
  have hcondemned : g.condemned = false := by
    by_contra hnot
    have hclosed := hwhole.condemned (by simpa using hnot)
    simp [running] at hclosed
  have hperm : ((w.traceOf n).flatMap due).Perm
      (g.pending ++ (w.traceOf n).filterMap delivered? ++ (w.traceOf n).filterMap dropped?) := by
    refine List.perm_iff_count.2 fun x ↦ ?_
    have hx := (owed hr hg).eq (hwhole.outbox running inUse) hcondemned x
    rw [List.count_append, List.count_append, hx]
  refine ⟨⟨accepted_nodup hr hg, accepted_perm hr hg hstoring⟩, hperm, ?_⟩
  intro o ho k hk
  rw [← filter_due (origin_nodup hr hg) ho hk]
  exact hperm.filter _

end Reached

/-- Two peers that are known from the start. -/
def twoPeers : Directory :=
  ⟨[⟨"a", "http://a"⟩, ⟨"b", "http://b"⟩]⟩

/-- One peer took a message, the other is to be called again, and a second message waits in the
intake. -/
def busyMoves : List Move :=
  [.start { retryDelay := 0 } .works,
    .submit 0 { (default : Message) with id := "1" } [],
    .act 0 (.arrive 0), .act 0 .accept, .act 0 .receive, .act 0 (.store .works), .act 0 .forward,
    .act 0 .take, .act 0 .attempt, .act 0 (.answer .delivers), .act 0 .announce,
    .act 0 (.forget .works), .act 0 .attempt, .act 0 (.answer .fails), .act 0 .lookUp,
    .act 0 .putBack,
    .submit 0 { (default : Message) with id := "2" } [], .act 0 (.arrive 1), .act 0 .accept]

theorem obligations_kept_of_busy :
    ∃ w g, Reaches Calm (initial twoPeers .fresh) w ∧ w.generations[0]? = some g ∧
      g.closed = false ∧ g.dropped = false ∧ g.pending.length = 1 ∧ g.intake.entries.length = 1 ∧
      ((w.traceOf 0).flatMap due).Perm
        (g.pending ++ (w.traceOf 0).filterMap delivered? ++ (w.traceOf 0).filterMap dropped?) := by
  have hrun : ((initial twoPeers .fresh).run Calm busyMoves).any (fun w ↦
      w.generations[0]?.any fun g ↦ g.closed = false ∧ g.dropped = false ∧
        g.pending.length = 1 ∧ g.intake.entries.length = 1) = true := by
    decide +kernel
  obtain ⟨w, g, hr, hg, htest⟩ := exists_of_run hrun
  obtain ⟨hclosed, hdropped, hpending, hintake⟩ := of_decide_eq_true htest
  exact ⟨w, g, hr, hg, hclosed, hdropped, hpending, hintake,
    (obligations_kept hr hg hclosed hdropped).2.1⟩

end PeerRelay.Delivery
