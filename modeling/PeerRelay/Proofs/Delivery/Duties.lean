import Mathlib.Data.List.Flatten
import Mathlib.Data.List.Perm.Basic
import PeerRelay.Proofs.Delivery.Submissions

/-!
# What is owed

A *duty* is a message that is owed to one peer. Duties arise when the storing worker has dealt with
a submission and when a record is reloaded, one for each peer. They then travel through the places
of a generation, the worker that waits for room, the outbox, the tour of the sending worker, and
the retries that sleep, until the peer takes the message or is given up.

`Generation.Acts.keeps` is the law of one action: no action duplicates a duty, and while
the outbox is open none loses one. A failed call splits the duties of a parcel; that the law counts
duties and not parcels is what makes this a case like the others.
-/

namespace PeerRelay.Delivery

/-! ### Duties and the places where they are -/

/-- A message that is owed to a peer, on behalf of a submission or a reloaded record. -/
structure Duty where
  ticket : Nat
  message : Message
  target : Instance
deriving DecidableEq

/-- One duty for each of some peers. -/
def owe (ticket : Nat) (m : Message) (targets : List Instance) : List Duty :=
  targets.map fun i ↦ ⟨ticket, m, i⟩

def Parcel.duties (p : Parcel) : List Duty :=
  owe p.ticket p.message p.targets

/-- The peer that the sending worker is with, as long as it neither took the message nor is given
up. -/
def Leg.owed : Leg → List Instance
  | .calling target | .failed target | .retrying target => [target]
  | .between | .taken _ | .leaving _ => []

/-- The peer that the sending worker is with, unless it is done, and those that are ahead. -/
def Tour.duties (t : Tour) : List Duty :=
  owe t.parcel.ticket t.parcel.message (t.leg.owed ++ t.ahead)

/-- What the storing worker is about to offer. -/
def Storing.duties : Storing → List Duty
  | .written s targets => owe s.ticket s.message targets
  | _ => []

/-- What the reload is about to offer. -/
def Reload.duties (r : Reload) : List Duty :=
  r.ahead.flatMap fun entry ↦ owe entry.1 entry.2.message entry.2.targets

/-- What waits for room in the outbox, or is in it. -/
def queued (waiting : List (Waiter × Parcel)) (outbox : Queue Parcel) : List Duty :=
  waiting.flatMap (·.2.duties) ++ outbox.entries.flatMap Parcel.duties

/-- What a generation owes and has not lost sight of. -/
def Generation.pending (g : Generation) : List Duty :=
  g.storing.duties ++ g.reload.duties ++ queued g.waiting g.outbox ++
    g.tour.toList.flatMap Tour.duties ++ g.sleeping.flatMap (·.2.duties)

namespace Observation

/-- The duties that arise with an observation. -/
def due : Observation → List Duty
  | .processed s targets => owe s.ticket s.message targets
  | .reloaded ticket record => owe ticket record.message record.targets
  | _ => []

/-- The duty that ends because the peer took the message. -/
def delivered? : Observation → Option Duty
  | .answered ticket m target true => some ⟨ticket, m, target⟩
  | _ => none

/-- The duty that ends because the peer was given up. -/
def dropped? : Observation → Option Duty
  | .dropped ticket m target => some ⟨ticket, m, target⟩
  | _ => none

end Observation

section

variable (ticket : Nat) (m : Message) (s : Submission) (targets : List Instance)

@[simp] theorem owe_nil : owe ticket m [] = [] := rfl

@[simp] theorem owe_cons (i : Instance) :
    owe ticket m (i :: targets) = ⟨ticket, m, i⟩ :: owe ticket m targets := rfl

@[simp] theorem duties_ready : Storing.ready.duties = [] := rfl

@[simp] theorem duties_holding : (Storing.holding s).duties = [] := rfl

@[simp] theorem duties_written :
    (Storing.written s targets).duties = owe s.ticket s.message targets := rfl

@[simp] theorem duties_waiting : Storing.waiting.duties = [] := rfl

@[simp] theorem duties_stopping : Storing.stopping.duties = [] := rfl

@[simp] theorem duties_ended : Storing.ended.duties = [] := rfl

@[simp] theorem duties_crashed : Storing.crashed.duties = [] := rfl

@[simp] theorem duties_cancelled : Storing.cancelled.duties = [] := rfl

@[simp] theorem duties_track (directory : Directory) :
    (Parcel.track directory ticket m targets).duties = owe ticket m targets := rfl

@[simp] theorem duties_retry (p : Parcel) (target : Instance) :
    (p.retry target).duties = [⟨p.ticket, p.message, target⟩] := rfl

/-- The tour that goes on is without the peer that the sending worker was with. -/
theorem duties_next (t : Tour) :
    t.next.toList.flatMap Tour.duties = owe t.parcel.ticket t.parcel.message t.ahead :=
  t.flatMap_next (fun last ↦ by rw [last, owe_nil]) (by simp [Tour.duties, Leg.owed])

end

namespace Generation

section Places

variable (g : Generation) (who : Waiter) (p : Parcel) (x : Duty)

@[simp] theorem duties_release : (g.release who).storing.duties = g.storing.duties := by
  rcases g.release_storing_cases who with ⟨hwaiting, h⟩ | h
  · rw [h, hwaiting]
    rfl
  · rw [h]

/-- Letting the reload go on keeps its records if the outbox is open. -/
theorem count_reload_release :
    (g.release who).reload.duties.count x ≤ g.reload.duties.count x ∧
      (g.outbox.isOpen = true →
        (g.release who).reload.duties.count x = g.reload.duties.count x) := by
  cases who with
  | storing => simp [release]
  | reload =>
    unfold release toReload Reload.duties
    cases g.outbox.isOpen <;> simp
  | retry => simp [release]

/-- What is offered to an open outbox is queued, and nothing else comes or goes. -/
theorem count_queued_offer :
    (queued (g.offer who p).waiting (g.offer who p).outbox).count x ≤
        (queued g.waiting g.outbox).count x + p.duties.count x ∧
      (g.outbox.isOpen = true →
        (queued (g.offer who p).waiting (g.offer who p).outbox).count x =
          (queued g.waiting g.outbox).count x + p.duties.count x) := by
  rcases g.offer_cases who p with ⟨hclosed, h⟩ | ⟨hopen, -, h⟩ | ⟨hopen, -, h⟩
  · simp [h, hclosed]
  · simp [h, queued, Queue.push, List.count_append]
    omega
  · simp [h, queued, List.count_append]
    omega

theorem count_pending_offer :
    (g.offer who p).pending.count x ≤ g.pending.count x + p.duties.count x ∧
      (g.outbox.isOpen = true →
        (g.offer who p).pending.count x = g.pending.count x + p.duties.count x) := by
  have hoffer := g.count_queued_offer who p x
  simp only [pending, List.count_append, offer_storing, offer_reload, offer_tour, offer_sleeping]
  refine ⟨by omega, fun hopen ↦ ?_⟩
  have hqueued := hoffer.2 hopen
  omega

theorem count_pending_reinject (clock : Nat) :
    (g.reinject clock p).pending.count x ≤ g.pending.count x + p.duties.count x ∧
      (g.outbox.isOpen = true →
        (g.reinject clock p).pending.count x = g.pending.count x + p.duties.count x) := by
  rcases g.reinject_cases clock p with ⟨due, h⟩ | h
  · rw [h]
    simp [pending]
    omega
  · rw [h]
    exact g.count_pending_offer .retry p x

/-- What is owed to the peer that the sending worker is with is pending. -/
theorem mem_pending_of_owed {p : Parcel} {ahead : List Instance} {leg : Leg} {target : Instance}
    (touring : g.tour = some ⟨p, ahead, leg⟩) (owed : target ∈ leg.owed) :
    ⟨p.ticket, p.message, target⟩ ∈ g.pending := by
  have hduty : ⟨p.ticket, p.message, target⟩ ∈ owe p.ticket p.message (leg.owed ++ ahead) :=
    List.mem_map_of_mem (List.mem_append_left _ owed)
  simp [pending, touring, Tour.duties, hduty]

/-- The duty whose call is next is pending. -/
theorem mem_pending_of_next {p : Parcel} {target : Instance} {ahead : List Instance}
    (next : g.tour = some ⟨p, target :: ahead, .between⟩) :
    ⟨p.ticket, p.message, target⟩ ∈ g.pending := by
  simp [pending, next, Tour.duties, Leg.owed]

/-- A generation whose sending worker ends keeps at most what it had. -/
theorem count_pending_abortSending : g.abortSending.pending.count x ≤ g.pending.count x := by
  simp [pending, queued, Queue.abandon, abortSending]
  omega

end Places

open Observation

variable {w : World} {g : Generation} {a : Action} {c : Change}

theorem flatMap_due_stored (k : Nat) (m : Message) (targets : List Instance) :
    (targets.map (.stored k m)).flatMap due = [] := by
  simp [due, List.flatMap_map, List.flatMap_eq_nil_iff]

theorem flatMap_due_abandoned (tickets : List Nat) : (tickets.map .abandoned).flatMap due = [] := by
  simp [due, List.flatMap_map, List.flatMap_eq_nil_iff]

/-- A change does not duplicate a duty, and does not lose it while the outbox is open and the
storing worker is not to be cancelled. -/
structure Keeps (g : Generation) (c : Change) (x : Duty) : Prop where
  le : c.generation.pending.count x + (c.seen.filterMap delivered?).count x +
    (c.seen.filterMap dropped?).count x ≤ g.pending.count x + (c.seen.flatMap due).count x
  eq : c.generation.outbox.isOpen = true → g.condemned = false →
    c.generation.pending.count x + (c.seen.filterMap delivered?).count x +
      (c.seen.filterMap dropped?).count x = g.pending.count x + (c.seen.flatMap due).count x

section Keeping

variable {g' : Generation} {db : Store.Database} {seen : List Observation} {p : Parcel} {x : Duty}

theorem Keeps.of_eq (h : c.generation.pending.count x + (c.seen.filterMap delivered?).count x +
    (c.seen.filterMap dropped?).count x = g.pending.count x + (c.seen.flatMap due).count x) :
    g.Keeps c x :=
  ⟨Nat.le_of_eq h, fun _ _ ↦ h⟩

/-- Nothing arises and nothing is done with. -/
theorem Keeps.of_pending (hle : g'.pending.count x ≤ g.pending.count x)
    (heq : g'.outbox.isOpen = true → g.condemned = false → g'.pending.count x = g.pending.count x)
    (hdelivered : seen.filterMap delivered? = []) (hdropped : seen.filterMap dropped? = [])
    (hdue : seen.flatMap due = []) : g.Keeps ⟨g', db, seen⟩ x := by
  constructor
  · simpa [hdelivered, hdropped, hdue] using hle
  · simpa [hdelivered, hdropped, hdue] using heq

/-- The sending worker ends. -/
theorem Keeps.of_abort (hdelivered : seen.filterMap delivered? = [])
    (hdropped : seen.filterMap dropped? = []) (hdue : seen.flatMap due = []) :
    g.Keeps ⟨g.abortSending, db, seen⟩ x :=
  .of_pending (g.count_pending_abortSending x) (fun hopen ↦ nomatch hopen) hdelivered hdropped hdue

theorem keeps_forward {s : Submission} {targets : List Instance} {storing : Storing}
    (written : g.storing = .written s targets) (hduties : storing.duties = [])
    (hp : p.duties = owe s.ticket s.message targets) :
    g.Keeps ⟨{ g.offer .storing p with storing }, db, [.forwarded p]⟩ x := by
  have hoffer := g.count_queued_offer .storing p x
  rw [hp] at hoffer
  refine .of_pending ?_ (fun hopen _ ↦ ?_) rfl rfl rfl
  · simp only [pending, written, hduties, List.count_append, offer_reload, offer_tour,
      offer_sleeping, duties_written, List.count_nil]
    omega
  · have hqueued := hoffer.2 (by simpa using hopen)
    simp only [pending, written, hduties, List.count_append, offer_reload, offer_tour,
      offer_sleeping, duties_written, List.count_nil]
    omega

theorem keeps_reload {ticket : Nat} {record : Store.Record} {rest : List (Nat × Store.Record)}
    (next : g.reload = ⟨(ticket, record) :: rest, false⟩)
    (hp : p.duties = owe ticket record.message record.targets) :
    g.Keeps ⟨{ g.offer .reload p with reload := ⟨g.toReload rest, g.mustWait⟩ }, db,
      [.forwarded p]⟩ x := by
  have hoffer := g.count_queued_offer .reload p x
  rw [hp] at hoffer
  -- what is left to reload counts as if it was waiting and had just been released
  have hrest : (Reload.duties ⟨g.toReload rest, g.mustWait⟩).count x ≤
      (Reload.duties ⟨rest, true⟩).count x ∧ (g.outbox.isOpen = true →
        (Reload.duties ⟨g.toReload rest, g.mustWait⟩).count x =
          (Reload.duties ⟨rest, true⟩).count x) :=
    ({ g with reload := ⟨rest, true⟩ } : Generation).count_reload_release .reload x
  have hnext : g.reload.duties.count x =
      (owe ticket record.message record.targets).count x +
        (Reload.duties ⟨rest, true⟩).count x := by
    rw [next]
    simp [Reload.duties]
  refine .of_pending ?_ (fun hopen _ ↦ ?_) rfl rfl rfl
  · simp only [pending, List.count_append, offer_storing, offer_tour, offer_sleeping]
    omega
  · have hqueued := hoffer.2 (by simpa using hopen)
    have hahead := hrest.2 (by simpa using hopen)
    simp only [pending, List.count_append, offer_storing, offer_tour, offer_sleeping]
    omega

theorem keeps_enter {who : Waiter} {rest : List (Waiter × Parcel)}
    (first : g.waiting = (who, p) :: rest) (isOpen : g.outbox.isOpen = true) :
    g.Keeps ⟨{ g with waiting := rest, outbox := g.outbox.push p }.release who, db, []⟩ x := by
  have hreload := ({ g with waiting := rest, outbox := g.outbox.push p }
    : Generation).count_reload_release who x
  have hqueued : (queued rest (g.outbox.push p)).count x = (queued g.waiting g.outbox).count x := by
    rw [first]
    simp [queued, Queue.push, List.count_append]
    omega
  refine .of_eq ?_
  simp only [pending, List.count_append, duties_release, release_waiting, release_outbox,
    release_tour, release_sleeping, hreload.2 isOpen, hqueued]
  simp

theorem keeps_enterClosed {who : Waiter} {rest : List (Waiter × Parcel)}
    (first : g.waiting = (who, p) :: rest) (isClosed : g.outbox.isOpen = false) :
    g.Keeps ⟨{ g with waiting := rest }.release who, db, []⟩ x := by
  have hreload : (({ g with waiting := rest } : Generation).release who).reload.duties.count x ≤
      g.reload.duties.count x :=
    (({ g with waiting := rest } : Generation).count_reload_release who x).1
  have hqueued : (queued rest g.outbox).count x ≤ (queued g.waiting g.outbox).count x := by
    rw [first]
    simp [queued, List.count_append]
  refine .of_pending ?_ (fun hopen ↦ absurd hopen (by simp [isClosed])) rfl rfl rfl
  simp only [pending, List.count_append, duties_release, release_waiting, release_outbox,
    release_tour, release_sleeping]
  omega

theorem keeps_retry {ahead : List Instance} {target : Instance} {clock : Nat}
    (retrying : g.tour = some ⟨p, ahead, .retrying target⟩) :
    g.Keeps ⟨{ g with tour := Tour.next ⟨p, ahead, .retrying target⟩ }.reinject clock
      (p.retry target), db, []⟩ x := by
  have hreinject := ({ g with tour := Tour.next ⟨p, ahead, .retrying target⟩ }
    : Generation).count_pending_reinject (p.retry target) x clock
  have hnext : ({ g with tour := Tour.next ⟨p, ahead, .retrying target⟩ }
      : Generation).pending.count x + (p.retry target).duties.count x = g.pending.count x := by
    simp [pending, duties_next, retrying, Tour.duties, Leg.owed, List.count_cons]
    omega
  rw [hnext] at hreinject
  exact .of_pending hreinject.1 (fun hopen _ ↦ hreinject.2 (by simpa using hopen)) rfl rfl rfl

theorem keeps_wake {position due : Nat} (sleeps : g.sleeping[position]? = some (due, p)) :
    g.Keeps ⟨{ g with sleeping := g.sleeping.eraseIdx position }.offer .retry p, db, []⟩ x := by
  have hoffer := ({ g with sleeping := g.sleeping.eraseIdx position }
    : Generation).count_pending_offer .retry p x
  have hwakes : ({ g with sleeping := g.sleeping.eraseIdx position }
      : Generation).pending.count x + p.duties.count x = g.pending.count x := by
    obtain ⟨hlt, hget⟩ := List.getElem?_eq_some_iff.1 sleeps
    -- retries wake up in any order, so that the one that does is not the first of the list
    have hperm := (List.getElem_cons_eraseIdx_perm hlt).flatMap_right (·.2.duties)
    have hcount := hperm.count_eq x
    rw [hget] at hcount
    simp [pending] at hcount ⊢
    omega
  rw [hwakes] at hoffer
  exact .of_pending hoffer.1 (fun hopen _ ↦ hoffer.2 (by simpa using hopen)) rfl rfl rfl

theorem keeps_cancel (condemned : g.condemned = true) {intake : Queue Entry} :
    g.Keeps ⟨{ g with
      storing := .cancelled
      intake := intake
      waiting := g.waiting.filter (·.1 ≠ .storing) }, db, []⟩ x := by
  have hqueued : (queued (g.waiting.filter (·.1 ≠ .storing)) g.outbox).count x ≤
      (queued g.waiting g.outbox).count x :=
    ((List.filter_sublist.flatMap _).append (List.Sublist.refl _)).count_le x
  refine .of_pending ?_ (fun _ hnot ↦ absurd condemned (by simp [hnot])) rfl rfl rfl
  simp only [pending, List.count_append, duties_cancelled, List.count_nil]
  omega

end Keeping

/-- No action duplicates a duty, and none loses one while the outbox is open and the storing worker
is not to be cancelled. -/
theorem Acts.keeps (h : g.Acts w a c) (x : Duty) : g.Keeps c x := by
  cases h with
  | storeForNobody s call holding nobody =>
    refine .of_eq ?_
    simp [pending, holding, due, delivered?, dropped?, List.filterMap_cons]
  | storeCrashes s holding somebody =>
    refine .of_eq ?_
    simp [pending, holding, due, delivered?, dropped?, List.filterMap_cons]
  | storeFails s call holding somebody =>
    refine .of_eq ?_
    simp [pending, holding, due, delivered?, dropped?, List.filterMap_cons]
    omega
  | storeWorks s record db holding somebody written =>
    refine .of_eq ?_
    have hstored := flatMap_due_stored s.ticket s.message record.targets
    simp [pending, holding, hstored, due, delivered?, dropped?, List.filterMap_cons,
      Function.comp_def]
    omega
  | forward s targets written p parcel storing waits =>
    have hduties : storing.duties = [] := by
      rw [waits]
      split <;> rfl
    exact keeps_forward written hduties (parcel ▸ rfl)
  | cancel condemned waits => exact keeps_cancel condemned
  | reload ticket record rest next p parcel => exact keeps_reload next (parcel ▸ rfl)
  | enter who p rest first isOpen => exact keeps_enter first isOpen
  | enterClosed who p rest first isClosed => exact keeps_enterClosed first isClosed
  | take p rest idle first =>
    refine .of_eq ?_
    simp [pending, idle, queued, first, Tour.duties, Leg.owed, Parcel.duties]
    omega
  | endTour p last =>
    refine .of_eq ?_
    simp [pending, last, Tour.duties, Leg.owed]
  | attempt p target ahead next =>
    refine .of_eq ?_
    simp [pending, next, Tour.duties, Leg.owed, due, delivered?, dropped?, List.filterMap_cons]
  | callCrashes p ahead target calling => exact .of_abort rfl rfl rfl
  | callDelivers p ahead target calling =>
    refine .of_eq ?_
    simp [pending, calling, Tour.duties, Leg.owed, due, delivered?, dropped?, List.filterMap_cons,
      List.count_cons]
    omega
  | giveUpPeer p ahead target failed known unknown =>
    refine .of_eq ?_
    simp [pending, failed, Tour.duties, Leg.owed, due, delivered?, dropped?, List.filterMap_cons,
      List.count_cons]
    omega
  | forget p ahead target removal leaving db done forgets =>
    refine .of_eq ?_
    simp [pending, duties_next, leaving, Tour.duties, Leg.owed, due, delivered?, dropped?,
      List.filterMap_cons]
  | forgetCrashes p ahead target leaving => exact .of_abort rfl rfl rfl
  | putBack p ahead target retrying => exact keeps_retry retrying
  | halt stopped waits => exact .of_abort rfl rfl rfl
  | wake position due p sleeps isDue => exact keeps_wake sleeps
  | drop inUse free =>
    refine .of_eq ?_
    rw [flatMap_due_abandoned]
    simp [pending, delivered?, dropped?, Function.comp_def]
  | _ =>
    refine .of_eq ?_
    simp_all [pending, Tour.duties, Leg.owed, due, delivered?, dropped?, List.filterMap_cons]

/-- A closed outbox stays closed. -/
theorem Acts.outbox_of_closed (h : g.Acts w a c) (isOpen : c.generation.outbox.isOpen = true) :
    g.outbox.isOpen = true := by
  cases h with
  | _ => simp_all [abortSending, Queue.abandon, Queue.push]

/-- A condemned worker stays condemned. -/
theorem Acts.condemned_of_not (h : g.Acts w a c) (condemned : c.generation.condemned = false) :
    g.condemned = false := by
  cases h with
  | _ => simp_all [abortSending]

end Generation

/-! ### Over a run -/

open Observation World

/-- What became due is pending, delivered, or given up. Only a generation that was told to stop, or
broken off, loses anything. -/
structure Owed (g : Generation) (tr : List Observation) : Prop where
  le : ∀ x, g.pending.count x + (tr.filterMap delivered?).count x +
    (tr.filterMap dropped?).count x ≤ (tr.flatMap due).count x
  eq : g.outbox.isOpen = true → g.condemned = false → ∀ x,
    g.pending.count x + (tr.filterMap delivered?).count x +
      (tr.filterMap dropped?).count x = (tr.flatMap due).count x

/-- A generation owes what it has to reload. -/
theorem due_reloadSeen (records : List (Nat × Store.Record)) :
    (reloadSeen records).flatMap due = Reload.duties ⟨records, false⟩ := by
  simp [reloadSeen, Reload.duties, due, List.flatMap_map]

theorem owed_invariant :
    LocalInvariant (fun _ ↦ True) (fun _ _ _ ↦ True) (fun _ g tr ↦ Owed g tr) where
  start first settings records := by
    have hcount : ∀ x, (newGeneration settings (numbered first records)).pending.count x +
        ((reloadSeen (numbered first records)).reverse.filterMap delivered?).count x +
          ((reloadSeen (numbered first records)).reverse.filterMap dropped?).count x =
        ((reloadSeen (numbered first records)).reverse.flatMap due).count x := by
      intro x
      rw [List.Perm.count_eq ((List.reverse_perm _).flatMap_right due), due_reloadSeen]
      simp [Generation.pending, newGeneration, queued, Queue.make, reloadSeen, delivered?, dropped?,
        List.filterMap_reverse, Function.comp_def]
    exact ⟨fun x ↦ Nat.le_of_eq (hcount x), fun _ _ ↦ hcount⟩
  later _ h := h
  refuse m targets closed _ ih := ⟨ih.le, ih.eq⟩
  call m targets isOpen inUse _ ih := ⟨ih.le, ih.eq⟩
  act := by
    intro w g tr a c _ hacts _ ih
    refine ⟨fun x ↦ ?_, fun hopen hcondemned x ↦ ?_⟩
    · have hstep := (hacts.keeps x).le
      have hx := ih.le x
      rw [count_filterMap_seen, count_filterMap_seen, count_flatMap_seen]
      omega
    · have hstep := (hacts.keeps x).eq hopen (hacts.condemned_of_not hcondemned)
      have hx := ih.eq (hacts.outbox_of_closed hopen) (hacts.condemned_of_not hcondemned) x
      rw [count_filterMap_seen, count_filterMap_seen, count_flatMap_seen]
      omega

theorem owed {may : World → Move → Prop} {d : Directory} {db : Store.Database} {w : World} {n : Nat}
    {g : Generation} (hr : Reaches may (initial d db) w) (hg : w.generations[n]? = some g) :
    Owed g (w.traceOf n) :=
  owed_invariant.of_reaches (fun _ ↦ trivial) (fun _ _ _ _ ↦ trivial) hr hg

/-- What is pending became due. -/
theorem Owed.mem_due {g : Generation} {tr : List Observation} (h : Owed g tr) {x : Duty}
    (hx : x ∈ g.pending) : x ∈ tr.flatMap due := by
  have hle := h.le x
  have hpos := List.count_pos_iff.2 hx
  exact List.count_pos_iff.1 (by omega)

/-- What became due was processed or reloaded. -/
theorem mem_due {tr : List Observation} {x : Duty} (hx : x ∈ tr.flatMap due) :
    (∃ s targets, .processed s targets ∈ tr ∧ s.key = (x.ticket, x.message) ∧
      x.target ∈ targets) ∨
    ∃ record, .reloaded x.ticket record ∈ tr ∧ record.message = x.message ∧
      x.target ∈ record.targets := by
  obtain ⟨o, ho, hdue⟩ := List.mem_flatMap.1 hx
  cases o with
  | processed s targets =>
    obtain ⟨i, hi, rfl⟩ := List.mem_map.1 hdue
    exact Or.inl ⟨s, targets, ho, rfl, hi⟩
  | reloaded k record =>
    obtain ⟨i, hi, rfl⟩ := List.mem_map.1 hdue
    exact Or.inr ⟨record, ho, rfl, hi⟩
  | _ => cases hdue

end PeerRelay.Delivery
