import PeerRelay.Proofs.Delivery.Duties

/-!
# The history of the sending worker

What is seen of the sending worker is one visit to a peer after the other. A visit is a call with
all that belongs to it: the answer, and for a message that was taken or a peer that is given up the
announcement and the request to the store to take the peer off. Only the last visit may be
unfinished: it is the one that is going on, and what was seen of it is what the leg of the tour says
(`Begun`), or the worker ended while it waited for the answer (`visited_of_reaches`).

A visit takes several steps, between which others act. The law of one action says what it adds to
the visit that was going on, and whether the visit is over by it (`Generation.Acts.underway`).
-/

namespace PeerRelay.Delivery

open Observation World

/-! ### A closed outbox -/

/-- Behind a closed outbox the sending worker has ended: nothing is in the outbox, and no tour goes
on. -/
structure Quiet (g : Generation) : Prop where
  entries : g.outbox.isOpen = false → g.outbox.entries = []
  tour : g.outbox.isOpen = false → g.tour = none

namespace Generation

variable {w : World} {g : Generation} {a : Action} {c : Change}

/-- What is offered to a closed outbox is lost. -/
theorem offer_of_closed (who : Waiter) (p : Parcel) (h : g.outbox.isOpen = false) :
    g.offer who p = g := by
  simp [offer, h]

theorem Acts.quiet (h : g.Acts w a c) (hg : Quiet g) : Quiet c.generation := by
  have hentries := hg.entries
  have htour := hg.tour
  refine ⟨fun hclosed ↦ ?_, fun hclosed ↦ ?_⟩
  · cases h with
    | forward s targets written p parcel storing waits =>
      simp only [offer_isOpen] at hclosed
      simpa [offer_of_closed _ _ hclosed] using hentries hclosed
    | reload ticket record rest next p parcel =>
      simp only [offer_isOpen] at hclosed
      simpa [offer_of_closed _ _ hclosed] using hentries hclosed
    | wake position due p sleeps isDue =>
      rw [offer_isOpen] at hclosed
      rw [offer_of_closed _ _ hclosed]
      exact hentries hclosed
    | putBack p ahead target retrying =>
      rw [reinject_isOpen] at hclosed
      rw [htour hclosed] at retrying
      cases retrying
    | _ => simp_all [abortSending, Queue.abandon, Queue.push]
  · cases h with
    | take p rest idle front => simp_all
    | _ => simp_all [abortSending, Queue.push]

end Generation

theorem quiet_invariant :
    LocalInvariant (fun _ ↦ True) (fun _ _ _ ↦ True) (fun _ g _ ↦ Quiet g) where
  start _ _ _ := ⟨nofun, nofun⟩
  later _ h := h
  refuse _ _ _ _ ih := ih
  call _ _ _ _ _ ih := ⟨ih.entries, ih.tour⟩
  act _ hacts _ ih := hacts.quiet ih

theorem quiet {may : World → Move → Prop} {d : Directory} {db : Store.Database} {w : World}
    {n : Nat} {g : Generation} (hr : Reaches may (initial d db) w)
    (hg : w.generations[n]? = some g) :
    Quiet g :=
  quiet_invariant.of_reaches (fun _ ↦ trivial) (fun _ _ _ _ ↦ trivial) hr hg

/-! ### Visits -/

/-- What the sending worker does: it calls a peer, and deals with the end of the call. -/
def Observation.isSending : Observation → Bool
  | .attempt .. | .answered .. | .sent .. | .dropped .. | .remove .. => true
  | _ => false

/-- How a visit to a peer ended. -/
inductive VisitEnd where
  /-- The peer took the message; `removed` says whether the store then took it off. -/
  | taken (removed : Bool)
  /-- The peer was given up. -/
  | givenUp (removed : Bool)
  /-- It is to be called again. -/
  | retried
deriving DecidableEq

/-- A visit to a peer. -/
structure Visit where
  ticket : Nat
  message : Message
  target : Instance
  failures : Nat
  ending : VisitEnd
deriving DecidableEq

/-- What is seen of a visit, first thing first. -/
def Visit.seen (x : Visit) : List Observation :=
  .attempt x.ticket x.message x.target x.failures ::
    match x.ending with
    | .taken removed =>
      [.answered x.ticket x.message x.target true, .sent x.ticket x.message x.target,
        .remove x.ticket x.message x.target removed]
    | .givenUp removed =>
      [.answered x.ticket x.message x.target false, .dropped x.ticket x.message x.target,
        .remove x.ticket x.message x.target removed]
    | .retried => [.answered x.ticket x.message x.target false]

/-- The peer that the sending worker is with. -/
def Leg.peer? : Leg → Option Instance
  | .between => none
  | .calling i | .taken i | .failed i | .leaving i | .retrying i => some i

/-- The peer that took the message or is given up, and is yet to be taken off. -/
def Leg.finished? : Leg → Option Instance
  | .taken i | .leaving i => some i
  | _ => none

/-- Between two peers nobody is to be taken off. -/
theorem Leg.finished?_next {t t' : Tour} (h : t.next = some t') : t'.leg.finished? = none := by
  rw [Tour.next] at h
  split at h
  · cases h
  · cases h
    rfl

/-- What was seen of the visit that is going on for a parcel, first thing first. -/
inductive Begun (p : Parcel) : Leg → List Observation → Prop
  | between : Begun p .between []
  | calling (i : Instance) : Begun p (.calling i) [.attempt p.ticket p.message i p.failures]
  | taken (i : Instance) :
      Begun p (.taken i)
        [.attempt p.ticket p.message i p.failures, .answered p.ticket p.message i true]
  | announced (i : Instance) :
      Begun p (.leaving i)
        [.attempt p.ticket p.message i p.failures, .answered p.ticket p.message i true,
          .sent p.ticket p.message i]
  | failed (i : Instance) :
      Begun p (.failed i)
        [.attempt p.ticket p.message i p.failures, .answered p.ticket p.message i false]
  | givenUp (i : Instance) :
      Begun p (.leaving i)
        [.attempt p.ticket p.message i p.failures, .answered p.ticket p.message i false,
          .dropped p.ticket p.message i]
  | retrying (i : Instance) :
      Begun p (.retrying i)
        [.attempt p.ticket p.message i p.failures, .answered p.ticket p.message i false]

section Begun

variable {p : Parcel} {leg : Leg} {i : Instance} {rest : List Observation}

/-- A peer that the sending worker is with was called. -/
theorem Begun.attempt_mem (h : Begun p leg rest) (hi : leg.peer? = some i) :
    .attempt p.ticket p.message i p.failures ∈ rest := by
  cases h with
  | between => cases hi
  | _ =>
    cases hi
    exact List.mem_cons_self

theorem Begun.eq_nil (h : Begun p .between rest) : rest = [] := by
  cases h
  rfl

end Begun

/-- What was seen of the visit that is going on. A worker that ended has none, or left one while it
waited for the answer. -/
def Generation.Underway (g : Generation) (rest : List Observation) : Prop :=
  match g.tour with
  | some t => Begun t.parcel t.leg rest
  | none => rest = [] ∨
      (g.outbox.isOpen = false ∧ ∃ k m i f, rest = [.attempt k m i f])

/-! ### One action -/

namespace Generation

section Underway

variable {g g' : Generation} {rest : List Observation}

theorem underway_of_tour {p : Parcel} {ahead : List Instance} {leg : Leg}
    (touring : g.tour = some ⟨p, ahead, leg⟩) : g.Underway rest ↔ Begun p leg rest := by
  rw [Underway, touring]

/-- Between two visits nothing was begun. -/
theorem underway_nil_of_next {t : Tour} (h : g.tour = t.next) : g.Underway [] := by
  rw [Underway, h, Tour.next]
  split
  · rename_i t' ht'
    split at ht'
    · cases ht'
    · cases ht'
      exact .between
  · exact Or.inl rfl

/-- Who leaves the sending worker alone leaves what was begun. -/
theorem Underway.idle (h : g.Underway rest) {seen : List Observation} (htour : g'.tour = g.tour)
    (hopen : g'.outbox.isOpen = g.outbox.isOpen) (hsilent : seen.filter isSending = []) :
    g'.Underway (rest ++ seen.filter isSending) := by
  rwa [hsilent, List.append_nil, Underway, htour, hopen, ← Underway]

end Underway

variable {w : World} {g : Generation} {a : Action} {c : Change}

/-- What is seen of the storing worker is nothing that the sending worker does. -/
theorem filter_isSending_stored (k : Nat) (m : Message) (targets : List Instance) :
    (targets.map (.stored k m)).filter isSending = [] := by
  simp [List.filter_map, Function.comp_def, isSending]

theorem filter_isSending_abandoned (tickets : List Nat) :
    (tickets.map .abandoned).filter isSending = [] := by
  simp [List.filter_map, Function.comp_def, isSending]

/-- An action adds to the visit that is going on, or is the end of it. -/
theorem Acts.underway (h : g.Acts w a c) (quiet : Quiet g) {rest : List Observation}
    (hrest : g.Underway rest) :
    c.generation.Underway (rest ++ c.seen.filter isSending) ∨
      (∃ x : Visit, x.seen = rest ++ c.seen.filter isSending) ∧ c.generation.Underway [] := by
  cases h with
  | take p ahead idle front =>
    refine Or.inl ?_
    -- what a worker left behind is left for good
    have hopen : g.outbox.isOpen = true := by
      by_contra hclosed
      rw [quiet.entries (by simpa using hclosed)] at front
      cases front
    obtain rfl : rest = [] := by simpa [Underway, idle, hopen] using hrest
    exact .between
  | endTour p last =>
    obtain rfl := ((underway_of_tour last).1 hrest).eq_nil
    exact Or.inl (Or.inl rfl)
  | attempt p target ahead next =>
    obtain rfl := ((underway_of_tour next).1 hrest).eq_nil
    exact Or.inl (Begun.calling target)
  | callCrashes p ahead target calling =>
    cases (underway_of_tour calling).1 hrest
    exact Or.inl (Or.inr ⟨rfl, _, _, _, _, rfl⟩)
  | callDelivers p ahead target calling =>
    cases (underway_of_tour calling).1 hrest
    exact Or.inl (Begun.taken target)
  | callFails p ahead target calling =>
    cases (underway_of_tour calling).1 hrest
    exact Or.inl (Begun.failed target)
  | announce p ahead target taken =>
    cases (underway_of_tour taken).1 hrest
    exact Or.inl (Begun.announced target)
  | giveUpPeer p ahead target failed known unknown =>
    cases (underway_of_tour failed).1 hrest
    exact Or.inl (Begun.givenUp target)
  | keepPeer p ahead target failed kept =>
    cases (underway_of_tour failed).1 hrest
    exact Or.inl (Begun.retrying target)
  | forget p ahead target removal leaving db done forgets =>
    refine Or.inr ⟨?_, underway_nil_of_next rfl⟩
    cases (underway_of_tour leaving).1 hrest with
    | announced => exact ⟨⟨_, _, _, _, .taken done⟩, rfl⟩
    | givenUp => exact ⟨⟨_, _, _, _, .givenUp done⟩, rfl⟩
  | forgetCrashes p ahead target leaving =>
    refine Or.inr ⟨?_, Or.inl rfl⟩
    cases (underway_of_tour leaving).1 hrest with
    | announced => exact ⟨⟨_, _, _, _, .taken false⟩, rfl⟩
    | givenUp => exact ⟨⟨_, _, _, _, .givenUp false⟩, rfl⟩
  | putBack p ahead target retrying =>
    cases (underway_of_tour retrying).1 hrest
    exact Or.inr ⟨⟨⟨_, _, _, _, .retried⟩, rfl⟩, underway_nil_of_next (reinject_tour _ _ _)⟩
  | halt stopped waits =>
    refine Or.inl ?_
    rcases waits with idle | ⟨p, ahead, target, calling⟩
    · rw [Underway, idle] at hrest
      exact hrest.imp (fun h ↦ by simp [h]) fun ⟨_, h⟩ ↦ ⟨rfl, by simpa using h⟩
    · cases (underway_of_tour calling).1 hrest
      exact Or.inr ⟨rfl, _, _, _, _, rfl⟩
  | storeWorks s record db holding somebody written =>
    refine Or.inl (hrest.idle rfl rfl ?_)
    simp [filter_isSending_stored s.ticket s.message record.targets, isSending]
  | drop inUse free => exact Or.inl (hrest.idle rfl rfl (filter_isSending_abandoned _))
  | _ => exact Or.inl (hrest.idle (by simp) (by simp [Queue.push]) (by simp [isSending]))

end Generation

/-! ### Over a run -/

/-- What the sending worker did, first thing first. -/
def sendingHistory (tr : List Observation) : List Observation :=
  tr.reverse.filter isSending

@[simp] theorem sendingHistory_seen (seen tr : List Observation) :
    sendingHistory (seen.reverse ++ tr) = sendingHistory tr ++ seen.filter isSending := by
  rw [sendingHistory, List.reverse_append, List.reverse_reverse, List.filter_append,
    ← sendingHistory]

@[simp] theorem sendingHistory_cons (o : Observation) (tr : List Observation) :
    sendingHistory (o :: tr) = sendingHistory tr ++ [o].filter isSending :=
  sendingHistory_seen [o] tr

theorem mem_sendingHistory {o : Observation} {tr : List Observation} :
    o ∈ sendingHistory tr ↔ o ∈ tr ∧ o.isSending = true := by
  simp [sendingHistory]

/-- The history is a list of visits, and what was begun. -/
def Visited (g : Generation) (tr : List Observation) : Prop :=
  ∃ (visits : List Visit) (rest : List Observation),
    sendingHistory tr = visits.flatMap Visit.seen ++ rest ∧ g.Underway rest

namespace Visited

variable {g : Generation} {tr : List Observation} {p : Parcel} {ahead : List Instance} {leg : Leg}
  {i : Instance}

/-- What was begun with a peer is in the trace. -/
theorem exists_begun (h : Visited g tr) (touring : g.tour = some ⟨p, ahead, leg⟩) :
    ∃ rest ⊆ tr, Begun p leg rest := by
  obtain ⟨visits, rest, hhistory, hrest⟩ := h
  refine ⟨rest, fun o ho ↦ ?_, (Generation.underway_of_tour touring).1 hrest⟩
  have hmem : o ∈ sendingHistory tr := hhistory ▸ List.mem_append_right _ ho
  exact (mem_sendingHistory.1 hmem).1

/-- The peer that the sending worker is with was called. -/
theorem attempt_mem (h : Visited g tr) (touring : g.tour = some ⟨p, ahead, leg⟩)
    (hi : leg.peer? = some i) : .attempt p.ticket p.message i p.failures ∈ tr := by
  obtain ⟨rest, hsubset, hbegun⟩ := h.exists_begun touring
  exact hsubset (hbegun.attempt_mem hi)

end Visited

theorem visited_invariant :
    LocalInvariant (fun _ ↦ True) (fun _ g _ ↦ Quiet g) (fun _ g tr ↦ Visited g tr) where
  start first settings records := by
    refine ⟨[], [], ?_, Or.inl rfl⟩
    simp [sendingHistory, reloadSeen, List.filter_map, Function.comp_def, isSending]
  later _ h := h
  refuse m targets closed _ ih := by
    simpa [Visited, isSending] using ih
  call m targets isOpen inUse _ ih := by
    simpa [Visited, isSending, Generation.Underway] using ih
  act := by
    rintro w g tr a c - hacts hquiet ⟨visits, rest, hhistory, hrest⟩
    rw [Visited, sendingHistory_seen, hhistory, List.append_assoc]
    rcases hacts.underway hquiet hrest with hgoes | ⟨⟨x, hx⟩, hover⟩
    · exact ⟨visits, _, rfl, hgoes⟩
    · exact ⟨visits ++ [x], [], by simp [hx], hover⟩

/-- **The sending worker makes one visit after the other**, and only the last one may be unfinished:
it is going on, or the worker ended during its call. -/
theorem visited_of_reaches {may : World → Move → Prop} {d : Directory} {db : Store.Database}
    {w : World} {n : Nat} {g : Generation} (hr : Reaches may (initial d db) w)
    (hg : w.generations[n]? = some g) : Visited g (w.traceOf n) :=
  visited_invariant.of_reaches (fun _ ↦ trivial) (fun hv _ _ hg ↦ quiet hv hg) hr hg

end PeerRelay.Delivery
