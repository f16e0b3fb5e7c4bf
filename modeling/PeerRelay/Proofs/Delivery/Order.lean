import PeerRelay.Proofs.Delivery.Duties

/-!
# First in, first out

The storing worker works off the intake in the order of acceptance: what was accepted is what was
processed, what the worker has in hand, and what stands in the intake, one behind the other
(`InLine`). What it processed for somebody is forwarded in the same order (`Consigned`). So what was
forwarded on behalf of submissions comes in the order in which they were accepted
(`submitted_sublist`).

The laws of one action say that what goes in at the end and what comes out in front make up for the
change of the line. Reloaded records are forwarded as well; they are told apart by their tickets.
-/

namespace PeerRelay.Delivery

/-! ### Histories -/

namespace World

variable {α : Type}

/-- What was seen of some kind, first thing first. -/
def history (f : Observation → Option α) (tr : List Observation) : List α :=
  tr.reverse.filterMap f

variable {f : Observation → Option α} {tr : List Observation} {a : α}

theorem history_append (f : Observation → Option α) (after before : List Observation) :
    history f (after ++ before) = history f before ++ history f after := by
  rw [history, List.reverse_append, List.filterMap_append, ← history, ← history]

@[simp] theorem history_seen (f : Observation → Option α) (seen tr : List Observation) :
    history f (seen.reverse ++ tr) = history f tr ++ seen.filterMap f := by
  rw [history_append, history, history, List.reverse_reverse]

@[simp] theorem history_cons (f : Observation → Option α) (o : Observation)
    (tr : List Observation) : history f (o :: tr) = history f tr ++ (f o).toList := by
  rw [history, List.reverse_cons, List.filterMap_append, ← history]
  cases h : f o <;> simp [h]

theorem mem_history : a ∈ history f tr ↔ ∃ o ∈ tr, f o = some a := by
  simp [history]

end World

/-- A message on its way to some peers, on behalf of a submission or a reloaded record. -/
structure Consignment where
  ticket : Nat
  message : Message
  targets : List Instance
deriving DecidableEq

namespace Consignment

def duties (x : Consignment) : List Duty :=
  owe x.ticket x.message x.targets

def key (x : Consignment) : Nat × Message :=
  (x.ticket, x.message)

end Consignment

def Parcel.consignment (p : Parcel) : Consignment :=
  ⟨p.ticket, p.message, p.targets⟩

namespace Observation

/-- What the storing worker dealt with, if it goes to somebody. -/
def consigned? : Observation → Option Consignment
  | .processed s targets =>
    if targets = [] then none else some ⟨s.ticket, s.message, targets⟩
  | _ => none

def forwarded? : Observation → Option Consignment
  | .forwarded p => some p.consignment
  | _ => none

/-- What is forwarded under another ticket than the given ones. -/
def forwardedBeside? (tickets : List Nat) : Observation → Option Consignment
  | .forwarded p => if p.ticket ∈ tickets then none else some p.consignment
  | _ => none

end Observation

/-- What the storing worker has yet to forward. -/
def Storing.consigned : Storing → List Consignment
  | .written s targets => [⟨s.ticket, s.message, targets⟩]
  | _ => []

section

variable (s : Submission) (targets : List Instance)

@[simp] theorem consigned_ready : Storing.ready.consigned = [] := rfl

@[simp] theorem consigned_holding : (Storing.holding s).consigned = [] := rfl

@[simp] theorem consigned_written :
    (Storing.written s targets).consigned = [⟨s.ticket, s.message, targets⟩] := rfl

@[simp] theorem consigned_waiting : Storing.waiting.consigned = [] := rfl

@[simp] theorem consigned_stopping : Storing.stopping.consigned = [] := rfl

@[simp] theorem consigned_ended : Storing.ended.consigned = [] := rfl

@[simp] theorem consigned_crashed : Storing.crashed.consigned = [] := rfl

@[simp] theorem consigned_cancelled : Storing.cancelled.consigned = [] := rfl

end

namespace Generation

@[simp] theorem consigned_release (g : Generation) (who : Waiter) :
    (g.release who).storing.consigned = g.storing.consigned := by
  rcases g.release_storing_cases who with ⟨hwaiting, h⟩ | h
  · rw [h, hwaiting]
    rfl
  · rw [h]

theorem toReload_subset (g : Generation) (records : List (Nat × Store.Record)) :
    g.toReload records ⊆ records := by
  rw [toReload]
  split
  · exact List.Subset.refl _
  · exact List.nil_subset _

theorem release_ahead_subset (g : Generation) (who : Waiter) :
    (g.release who).reload.ahead ⊆ g.reload.ahead := by
  cases who with
  | reload => exact g.toReload_subset _
  | _ => exact List.Subset.refl _

/-- What was accepted and is not dealt with yet, first in front. -/
def line (g : Generation) : List Submission :=
  g.storing.hands ++ g.intake.entries.filterMap Entry.submission?

section Acts

open Observation

variable {w : World} {g : Generation} {a : Action} {c : Change}

/-- What an action accepts joins the line at the end, and what it processes leaves it in front. -/
theorem Acts.line (h : g.Acts w a c) (hwhole : ¬ c.generation.storing.brokenOff) :
    g.line ++ c.seen.filterMap accepted? = c.seen.filterMap processed? ++ c.generation.line := by
  cases h with
  | forward s targets written p parcel storing waits =>
    have hhands : storing.hands = [] := by
      rw [waits]
      split <;> rfl
    simp [Generation.line, written, hhands, accepted?, processed?, List.filterMap_cons]
  | _ =>
    simp_all [Generation.line, accepted?, processed?, Entry.submission?, abortSending,
      Function.comp_def, List.filterMap_cons, Queue.push, Queue.abandon, Storing.brokenOff]

/-- A worker that is or was broken off has processed nothing by the action. -/
theorem Acts.processed_of_brokenOff (h : g.Acts w a c)
    (hbroken : c.generation.storing.brokenOff) : c.seen.filterMap processed? = [] := by
  cases h with
  | _ => simp_all [processed?, Function.comp_def, List.filterMap_cons, Storing.brokenOff]

/-- What an action processes for somebody is to be forwarded next. -/
theorem Acts.consigned {reloaded : List Nat} (h : g.Acts w a c)
    (hwritten : ∀ x ∈ g.storing.consigned, x.ticket ∉ reloaded)
    (hreload : ∀ entry ∈ g.reload.ahead, entry.1 ∈ reloaded) :
    g.storing.consigned ++ c.seen.filterMap consigned? =
      c.seen.filterMap (forwardedBeside? reloaded) ++ c.generation.storing.consigned := by
  cases h with
  | storeFails s call holding somebody =>
    simp [holding, consigned?, forwardedBeside?, List.filterMap_cons, somebody]
  | storeWorks s record db holding somebody written =>
    obtain ⟨rfl, -⟩ := Store.write_eq_ok written
    simp [holding, consigned?, forwardedBeside?, List.filterMap_cons, Function.comp_def,
      Store.distinctByUri_ne_nil somebody]
  | forward s targets written p parcel storing waits =>
    have hconsigned : storing.consigned = [] := by
      rw [waits]
      split <;> rfl
    have hticket : s.ticket ∉ reloaded :=
      hwritten ⟨s.ticket, s.message, targets⟩ (by simp [written])
    simp [written, hconsigned, parcel, Parcel.track, Parcel.consignment, consigned?,
      forwardedBeside?, List.filterMap_cons, hticket]
  | reload ticket record rest next p parcel =>
    have hticket : p.ticket ∈ reloaded := by
      rw [parcel]
      exact hreload (ticket, record) (by simp [next])
    simp [consigned?, forwardedBeside?, List.filterMap_cons, hticket]
  | cancel condemned waits =>
    rcases waits with hwaits | hwaits <;>
      simp [hwaits, consigned?, forwardedBeside?]
  | _ =>
    simp_all [consigned?, forwardedBeside?, Function.comp_def, List.filterMap_cons, abortSending]

/-- An action reloads no more than what was ahead. -/
theorem Acts.ahead_subset (h : g.Acts w a c) :
    c.generation.reload.ahead ⊆ g.reload.ahead := by
  cases h with
  | reload ticket record rest next p parcel =>
    rw [next]
    exact List.Subset.trans (g.toReload_subset rest) (List.subset_cons_self _ _)
  | enter who p rest first isOpen => exact release_ahead_subset _ who
  | enterClosed who p rest first isClosed => exact release_ahead_subset _ who
  | _ => simp [abortSending]

end Acts

end Generation

/-! ### Over a run -/

open Observation World

/-- What was accepted stands in line behind what was processed. A worker that was broken off stops
somewhere in the line. -/
structure InLine (g : Generation) (tr : List Observation) : Prop where
  accepted : ¬ g.storing.brokenOff →
    history accepted? tr = history processed? tr ++ g.line
  processed : history processed? tr <+: history accepted? tr

theorem inLine_invariant :
    LocalInvariant (fun _ ↦ True) (fun _ _ _ ↦ True) (fun _ g tr ↦ InLine g tr) where
  start first settings records := by
    constructor <;>
      simp [Generation.line, newGeneration, reloadSeen, Queue.make, accepted?, processed?, history,
        Function.comp_def]
  later _ h := h
  refuse m targets closed _ ih := by
    constructor
    · simpa [accepted?, processed?] using ih.accepted
    · simpa [accepted?, processed?] using ih.processed
  call m targets isOpen inUse _ ih := by
    constructor
    · simpa [Generation.line, accepted?, processed?] using ih.accepted
    · simpa [accepted?, processed?] using ih.processed
  act := by
    intro w g tr a c _ hacts _ ih
    by_cases hwhole : ¬ c.generation.storing.brokenOff
    · have hbefore : ¬ g.storing.brokenOff := by
        intro hbroken
        rw [hacts.storing_of_finished (Or.inr hbroken)] at hwhole
        exact hwhole hbroken
      have haccepted : history accepted? (c.seen.reverse ++ tr) =
          history processed? (c.seen.reverse ++ tr) ++ c.generation.line := by
        rw [history_seen, history_seen, ih.accepted hbefore, List.append_assoc, List.append_assoc,
          hacts.line hwhole]
      exact ⟨fun _ ↦ haccepted, haccepted ▸ List.prefix_append _ _⟩
    · rw [not_not] at hwhole
      refine ⟨fun hnot ↦ absurd hwhole hnot, ?_⟩
      rw [history_seen, history_seen, hacts.processed_of_brokenOff hwhole, List.append_nil]
      exact ih.processed.trans (List.prefix_append _ _)

theorem InLine.processed_mem {g : Generation} {tr : List Observation} (h : InLine g tr)
    {s : Submission} {targets : List Instance} (hs : .processed s targets ∈ tr) :
    .accepted s ∈ tr := by
  have hmem := h.processed.subset (mem_history.2 ⟨_, hs, rfl⟩)
  obtain ⟨o, ho, heq⟩ := mem_history.1 hmem
  cases o <;> cases heq
  exact ho

/-- What was processed for somebody was forwarded in the same order, or is to be forwarded next. -/
structure Consigned (g : Generation) (tr : List Observation) : Prop where
  order : history consigned? tr =
    history (forwardedBeside? (tr.filterMap reloaded?)) tr ++ g.storing.consigned
  ahead : ∀ entry ∈ g.reload.ahead, .reloaded entry.1 entry.2 ∈ tr

theorem mem_reloaded {k : Nat} {tr : List Observation} :
    k ∈ tr.filterMap reloaded? ↔ ∃ record, .reloaded k record ∈ tr := by
  rw [List.mem_filterMap]
  constructor
  · rintro ⟨o, ho, hk⟩
    cases o <;> cases hk
    exact ⟨_, ho⟩
  · rintro ⟨record, hrecord⟩
    exact ⟨_, hrecord, rfl⟩

/-- What is still to be reloaded has the ticket of a record. -/
theorem Consigned.ahead_reloaded {g : Generation} {tr : List Observation} (h : Consigned g tr) :
    ∀ entry ∈ g.reload.ahead, entry.1 ∈ tr.filterMap reloaded? :=
  fun entry hentry ↦ mem_reloaded.2 ⟨entry.2, h.ahead entry hentry⟩

/-- An action reloads no record. -/
theorem reloaded?_of_acts {w : World} {g : Generation} {a : Action} {c : Change}
    (h : g.Acts w a c) : c.seen.filterMap reloaded? = [] := by
  refine List.filterMap_eq_nil_iff.2 fun o ho ↦ ?_
  have hissued := issued?_of_acts h o ho
  cases o <;> first | rfl | cases hissued

theorem reloaded?_seen {w : World} {g : Generation} {a : Action} {c : Change} (h : g.Acts w a c)
    (tr : List Observation) :
    (c.seen.reverse ++ tr).filterMap reloaded? = tr.filterMap reloaded? := by
  rw [List.filterMap_append, List.filterMap_reverse, reloaded?_of_acts h]
  rfl

/-- The ticket of a submission that was accepted is not that of a record. -/
theorem not_reloaded_of_accepted {g : Generation} {tr : List Observation} {s : Submission}
    (hissued : (tr.filterMap issued?).Nodup) (hcalls : CallsAccounted g tr)
    (hs : .accepted s ∈ tr) : s.ticket ∉ tr.filterMap reloaded? := by
  have haccepted : s.ticket ∈ (tr.filterMap accepted?).map (·.ticket) :=
    List.mem_map_of_mem (List.mem_filterMap.2 ⟨_, hs, rfl⟩)
  intro hreloaded
  have hone := List.nodup_iff_count_le_one.1 hissued s.ticket
  rw [count_issued] at hone
  have hcall := hcalls s.ticket
  have hpos := List.count_pos_iff.2 haccepted
  have hpos' := List.count_pos_iff.2 hreloaded
  omega

/-- What the storing worker dealt with for somebody is no record. -/
theorem not_reloaded_of_consigned {g : Generation} {tr : List Observation} {x : Consignment}
    (hissued : (tr.filterMap issued?).Nodup) (hcalls : CallsAccounted g tr) (hline : InLine g tr)
    (hx : x ∈ history consigned? tr) : x.ticket ∉ tr.filterMap reloaded? := by
  obtain ⟨o, ho, heq⟩ := mem_history.1 hx
  cases o with
  | processed s targets =>
    rw [consigned?] at heq
    split at heq
    · cases heq
    · cases heq
      exact not_reloaded_of_accepted hissued hcalls (hline.processed_mem ho)
  | _ => cases heq

theorem consigned_invariant :
    LocalInvariant (fun _ ↦ True)
      (fun _ g tr ↦ (tr.filterMap issued?).Nodup ∧ CallsAccounted g tr ∧ InLine g tr)
      (fun _ g tr ↦ Consigned g tr) where
  start first settings records := by
    refine ⟨?_, fun entry hentry ↦ List.mem_reverse.2 (List.mem_map_of_mem hentry)⟩
    simp [newGeneration, reloadSeen, history, consigned?, forwardedBeside?, Function.comp_def]
  later _ h := h
  refuse m targets closed _ ih := by
    refine ⟨?_, fun entry hentry ↦ by simpa using ih.ahead entry hentry⟩
    simpa [consigned?, forwardedBeside?, reloaded?, List.filterMap_cons] using ih.order
  call m targets isOpen inUse _ ih := by
    refine ⟨?_, fun entry hentry ↦ by simpa using ih.ahead entry hentry⟩
    simpa [consigned?, forwardedBeside?, reloaded?, List.filterMap_cons] using ih.order
  act := by
    rintro w g tr a c - hacts ⟨hissued, hcalls, hline⟩ ih
    have hwritten : ∀ x ∈ g.storing.consigned, x.ticket ∉ tr.filterMap reloaded? := by
      intro x hx
      refine not_reloaded_of_consigned hissued hcalls hline ?_
      rw [ih.order]
      exact List.mem_append_right _ hx
    refine ⟨?_, fun entry hentry ↦ ?_⟩
    · rw [reloaded?_seen hacts, history_seen, history_seen, ih.order, List.append_assoc,
        List.append_assoc, hacts.consigned hwritten ih.ahead_reloaded]
    · exact List.mem_append_right _ (ih.ahead entry (hacts.ahead_subset hentry))

/-! ### What was forwarded on behalf of submissions -/

/-- The peers of the first consignment with a ticket; none if there is no such consignment. -/
def targetsFor (ticket : Nat) (consignments : List Consignment) : List Instance :=
  ((consignments.find? (·.ticket = ticket)).map (·.targets)).getD []

/-- The peers that a message was forwarded to on behalf of a ticket; none if it was not yet. -/
def forwardedTo (tr : List Observation) (ticket : Nat) : List Instance :=
  targetsFor ticket (history forwarded? tr)

section TargetsFor

variable {ticket : Nat} {x : Consignment} {consignments : List Consignment}

theorem targetsFor_cons_self (h : x.ticket = ticket) :
    targetsFor ticket (x :: consignments) = x.targets := by
  simp [targetsFor, h]

theorem targetsFor_cons_of_ne (h : x.ticket ≠ ticket) :
    targetsFor ticket (x :: consignments) = targetsFor ticket consignments := by
  simp [targetsFor, h]

theorem targetsFor_of_not_mem (h : ticket ∉ consignments.map (·.ticket)) :
    targetsFor ticket consignments = [] := by
  induction consignments with
  | nil => rfl
  | cons y rest ih =>
    rw [List.map_cons, List.mem_cons, not_or] at h
    rw [targetsFor_cons_of_ne (Ne.symm h.1), ih h.2]

/-- Consignments with other tickets make no difference. -/
theorem targetsFor_filter {p : Nat → Bool} (h : p ticket = true) :
    targetsFor ticket (consignments.filter fun x ↦ p x.ticket) =
      targetsFor ticket consignments := by
  induction consignments with
  | nil => rfl
  | cons y rest ih =>
    by_cases hy : y.ticket = ticket
    · rw [List.filter_cons_of_pos (by rw [hy, h]), targetsFor_cons_self hy, targetsFor_cons_self hy]
    · rw [targetsFor_cons_of_ne hy, ← ih, List.filter_cons]
      split
      · rw [targetsFor_cons_of_ne hy]
      · rfl

/-- Consignments with the ticket that have the same peers are found by it. -/
theorem targetsFor_of_mem (h : x ∈ consignments)
    (hsame : ∀ y ∈ consignments, y.ticket = x.ticket → y.targets = x.targets) :
    targetsFor x.ticket consignments = x.targets := by
  obtain ⟨y, hy⟩ : ∃ y, consignments.find? (·.ticket = x.ticket) = some y :=
    Option.isSome_iff_exists.1 (List.find?_isSome.2 ⟨x, h, decide_eq_true rfl⟩)
  have hticket : y.ticket = x.ticket := by simpa using List.find?_some hy
  rw [targetsFor, hy]
  exact hsame y (List.mem_of_find?_eq_some hy) hticket

end TargetsFor

theorem history_forwardedBeside (tickets : List Nat) (tr : List Observation) :
    history (forwardedBeside? tickets) tr =
      (history forwarded? tr).filter (·.ticket ∉ tickets) := by
  rw [history, history, List.filter_filterMap]
  refine List.filterMap_congr fun o _ ↦ ?_
  cases o with
  | forwarded p => by_cases hp : p.ticket ∈ tickets <;>
      simp [forwardedBeside?, forwarded?, Parcel.consignment, Option.filter, hp]
  | _ => rfl

/-- Consignments that come in the order of submissions are found by the tickets of the submissions,
all of them and in order. -/
theorem flatMap_targetsFor {submissions : List Submission} {consignments : List Consignment}
    (h : (consignments.map (·.key)).Sublist (submissions.map (·.key)))
    (hnodup : (submissions.map (·.ticket)).Nodup) :
    (submissions.flatMap fun s ↦ owe s.ticket s.message (targetsFor s.ticket consignments)) =
      consignments.flatMap Consignment.duties := by
  induction submissions generalizing consignments with
  | nil =>
    obtain rfl := List.map_eq_nil_iff.1 (List.sublist_nil.1 h)
    rfl
  | cons s rest ih =>
    obtain ⟨hs, hrest⟩ := List.nodup_cons.1 hnodup
    rw [List.flatMap_cons]
    rcases List.sublist_cons_iff.1 h with hlater | ⟨keys, hkeys, hlater⟩
    · -- the tickets of the consignments are those of later submissions
      have hnone : s.ticket ∉ consignments.map (·.ticket) := by
        intro hmem
        have htickets := hlater.map Prod.fst
        rw [List.map_map, List.map_map] at htickets
        exact hs (htickets.subset hmem)
      rw [targetsFor_of_not_mem hnone, ih hlater hrest]
      rfl
    · obtain ⟨x, consignments, rfl, hkey, rfl⟩ := List.map_eq_cons_iff.1 hkeys
      have hticket : x.ticket = s.ticket := congrArg Prod.fst hkey
      have hmessage : x.message = s.message := congrArg Prod.snd hkey
      rw [targetsFor_cons_self hticket, List.flatMap_cons, ← ih hlater hrest, Consignment.duties,
        hticket, hmessage]
      refine congrArg _ (List.flatMap_congr fun s' hs' ↦ ?_)
      have hne : x.ticket ≠ s'.ticket := fun hsame ↦
        hs (List.mem_map.2 ⟨s', hs', hsame.symm.trans hticket⟩)
      rw [targetsFor_cons_of_ne hne]

/-- What goes to somebody is processed in the order in which everything is. -/
theorem consigned_sublist (tr : List Observation) : ((history consigned? tr).map (·.key)).Sublist
    ((history processed? tr).map (·.key)) := by
  rw [history, history]
  induction tr.reverse with
  | nil => exact List.Sublist.refl _
  | cons o rest ih =>
    cases o with
    | processed s targets =>
      by_cases htargets : targets = []
      · have hnone : consigned? (.processed s targets) = none := if_pos htargets
        rw [List.filterMap_cons_none hnone]
        exact ih.trans (List.sublist_cons_self _ _)
      · have hsome : consigned? (.processed s targets) = some ⟨s.ticket, s.message, targets⟩ :=
          if_neg htargets
        rw [List.filterMap_cons_some hsome]
        exact ih.cons_cons _
    | _ => exact ih

section Reached

variable {may : World → Move → Prop} {d : Directory} {db : Store.Database} {w : World} {n : Nat}
  {g : Generation}

theorem in_line (hr : Reaches may (initial d db) w) (hg : w.generations[n]? = some g) :
    InLine g (w.traceOf n) :=
  inLine_invariant.of_reaches (fun _ ↦ trivial) (fun _ _ _ _ ↦ trivial) hr hg

theorem consigned (hr : Reaches may (initial d db) w) (hg : w.generations[n]? = some g) :
    Consigned g (w.traceOf n) :=
  consigned_invariant.of_reaches (fun _ ↦ trivial)
    (fun hv _ _ hg ↦ ⟨traceOf_issued_nodup hv _, calls_accounted hv hg, in_line hv hg⟩) hr hg

/-- What was forwarded on behalf of submissions comes in the order in which they were accepted. -/
theorem submitted_sublist (hr : Reaches may (initial d db) w) (hg : w.generations[n]? = some g) :
    ((history (forwardedBeside? ((w.traceOf n).filterMap reloaded?)) (w.traceOf n)).map
      (·.key)).Sublist ((history accepted? (w.traceOf n)).map (·.key)) := by
  have hconsigned : (history (forwardedBeside? ((w.traceOf n).filterMap reloaded?))
      (w.traceOf n)).Sublist (history consigned? (w.traceOf n)) := by
    rw [(consigned hr hg).order]
    exact List.sublist_append_left _ _
  exact (hconsigned.map _).trans ((consigned_sublist _).trans
    ((in_line hr hg).processed.sublist.map _))

theorem acceptedTickets_nodup (hr : Reaches may (initial d db) w)
    (hg : w.generations[n]? = some g) :
    ((history accepted? (w.traceOf n)).map (·.ticket)).Nodup := by
  rw [history, List.filterMap_reverse, List.map_reverse, List.nodup_reverse]
  exact List.nodup_iff_count_le_one.2 (count_accepted_le hr hg)

/-- Nothing is forwarded twice on behalf of a submission. -/
theorem submittedTickets_nodup (hr : Reaches may (initial d db) w)
    (hg : w.generations[n]? = some g) :
    ((history (forwardedBeside? ((w.traceOf n).filterMap reloaded?)) (w.traceOf n)).map
      (·.ticket)).Nodup := by
  have htickets := (submitted_sublist hr hg).map Prod.fst
  rw [List.map_map, List.map_map] at htickets
  exact (acceptedTickets_nodup hr hg).sublist htickets

/-- Each accepted submission, in the order of acceptance, with the peers that it was forwarded to:
this is what was forwarded on behalf of submissions. -/
theorem flatMap_accepted (hr : Reaches may (initial d db) w) (hg : w.generations[n]? = some g) :
    ((history accepted? (w.traceOf n)).flatMap fun s ↦
      owe s.ticket s.message (forwardedTo (w.traceOf n) s.ticket)) =
      (history (forwardedBeside? ((w.traceOf n).filterMap reloaded?)) (w.traceOf n)).flatMap
        Consignment.duties := by
  rw [← flatMap_targetsFor (submitted_sublist hr hg) (acceptedTickets_nodup hr hg),
    history_forwardedBeside]
  refine List.flatMap_congr fun s hs ↦ ?_
  obtain ⟨o, ho, heq⟩ := mem_history.1 hs
  cases o <;> cases heq
  have hticket : s.ticket ∉ (w.traceOf n).filterMap reloaded? :=
    not_reloaded_of_accepted (traceOf_issued_nodup hr n) (calls_accounted hr hg) ho
  exact congrArg _ (targetsFor_filter (p := (· ∉ (w.traceOf n).filterMap reloaded?))
    (decide_eq_true hticket)).symm

end Reached

end PeerRelay.Delivery
