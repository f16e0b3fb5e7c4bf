import PeerRelay.Proofs.Delivery.Submissions
import PeerRelay.Proofs.Delivery.Waiting

/-!
# Nobody waits for ever

Three kinds of participants wait for room in the outbox: the storing worker, the reload, and retries
that found it full. The sending worker, which alone makes room, is none of them: in whatever leg of
its tour it is, it can go on. Who is said to wait stands in line for the outbox (`Queuing`), and an
outbox without entries has room, so that a line that does not move leaves the sending worker
something to do; and without a line the storing worker and the reload move by themselves
(`never_stuck`).

Nothing is said of how long a call of a peer takes. While one is going on the line may rest.
-/

namespace PeerRelay.Delivery

open World

/-- What the workers, the reload and the retries that wait for room do by themselves. The end of a
call, a retry that wakes up, submissions and shutdowns come from outside. -/
def Action.isOwn : Action → Bool
  | .receive | .closeIntake | .store _ | .forward | .reload | .enter | .take | .attempt
  | .announce | .lookUp | .forget _ | .putBack => true
  | _ => false

/-- With what a tour goes on. -/
def Leg.goesOn : Leg → Action → Bool
  | .between, .attempt | .calling _, .answer _ | .taken _, .announce | .failed _, .lookUp
  | .leaving _, .forget _ | .retrying _, .putBack => true
  | _, _ => false

namespace Generation

variable {w : World} {g : Generation} {n : Nat}

/-- Something is left to do: an entry stands in a queue or waits for room in the outbox, records are
left to reload, or a worker is in the middle of something. -/
def HasWork (g : Generation) : Prop :=
  g.intake.entries ≠ [] ∨ g.outbox.entries ≠ [] ∨ g.waiting ≠ [] ∨ g.isReloaded = false ∨
    g.storing.isBusy = true ∨ g.tour ≠ none

instance (g : Generation) : Decidable g.HasWork :=
  inferInstanceAs (Decidable (_ ∨ _))

/-- No call of a peer is going on. -/
def NoCall (g : Generation) : Prop :=
  ∀ t, g.tour = some t → t.leg.awaited? = none

/-- Some participant can take a step by itself. -/
def CanGoOn (g : Generation) (w : World) : Prop :=
  ∃ a, a.isOwn = true ∧ (g.act w a).isSome

/-! ### What can be done where -/

theorem isSome_take {p : Parcel} {rest : List Parcel} (idle : g.tour = none)
    (first : g.outbox.entries = p :: rest) : (g.act w .take).isSome := by
  simp [act, take, idle, first]

/-- A tour goes on from every leg, however the call of the peer and that of the store go, and
whether or not there is room in the outbox. -/
theorem isSome_goesOn {t : Tour} (touring : g.tour = some t) {a : Action}
    (goesOn : t.leg.goesOn a = true) : (g.act w a).isSome := by
  obtain ⟨p, ahead, leg⟩ := t
  cases leg with
  | between =>
    cases a <;> try cases goesOn
    cases ahead <;> simp [act, attempt, touring]
  | calling target =>
    cases a <;> try cases goesOn
    rename_i call
    cases call <;> simp [act, answer, touring]
  | taken target =>
    cases a <;> try cases goesOn
    simp [act, announce, touring]
  | failed target =>
    cases a <;> try cases goesOn
    simp only [act, lookUp, touring]
    split <;> rfl
  | leaving target =>
    cases a <;> try cases goesOn
    rename_i removal
    cases removal with
    | works =>
      simp only [act, forget, touring]
      split <;> rfl
    | fails => simp [act, forget, touring]
    | crashes => simp [act, forget, touring]
  | retrying target =>
    cases a <;> try cases goesOn
    simp [act, putBack, touring]

/-- The first in line enters an outbox that has room, and learns of one that is closed. -/
theorem isSome_enter (line : g.waiting ≠ [])
    (free : g.outbox.isOpen = false ∨ g.outbox.hasRoom = true) : (g.act w .enter).isSome := by
  obtain ⟨⟨who, p⟩, rest, hline⟩ := List.exists_cons_of_ne_nil line
  simp only [act, enter, hline]
  rcases free with hclosed | hroom
  · simp [hclosed]
  · rw [hroom]
    split <;> rfl

theorem isSome_reload {entry : Nat × Store.Record} {rest : List (Nat × Store.Record)}
    (next : g.reload = ⟨entry :: rest, false⟩) : (g.act w .reload).isSome := by
  simp [act, reloadNext, next]

theorem isSome_store {s : Submission} (holding : g.storing = .holding s) (call : StoreCall) :
    (g.act w (.store call)).isSome := by
  simp [act, store, holding]

theorem isSome_forward {s : Submission} {targets : List Instance}
    (written : g.storing = .written s targets) : (g.act w .forward).isSome := by
  simp [act, forward, written]

theorem isSome_closeIntake (stopping : g.storing = .stopping) :
    (g.act w .closeIntake).isSome := by
  simp [act, closeIntake, stopping]

theorem isSome_receive (ready : g.storing = .ready) (reloaded : g.isReloaded = true)
    (left : g.intake.entries ≠ []) : (g.act w .receive).isSome := by
  rw [act, receive, if_pos ⟨ready, reloaded⟩]
  split
  · contradiction
  · rfl

theorem isSome_move (hg : w.generations[n]? = some g) (a : Action) :
    (w.move (.act n a)).isSome = (g.act w a).isSome := by
  simp [move, World.act, hg]

/-! ### Someone can go on -/

/-- While no call is going on the sending worker can go on with what it has, and with what is in the
outbox. -/
theorem canGoOn_sending (noCall : g.NoCall) (left : g.tour ≠ none ∨ g.outbox.entries ≠ []) :
    g.CanGoOn w := by
  cases htour : g.tour with
  | some t =>
    have hidle := noCall t htour
    cases hleg : t.leg with
    | between => exact ⟨.attempt, rfl, isSome_goesOn htour (by rw [hleg]; rfl)⟩
    | calling target => simp [hleg, Leg.awaited?] at hidle
    | taken target => exact ⟨.announce, rfl, isSome_goesOn htour (by rw [hleg]; rfl)⟩
    | failed target => exact ⟨.lookUp, rfl, isSome_goesOn htour (by rw [hleg]; rfl)⟩
    | leaving target => exact ⟨.forget .works, rfl, isSome_goesOn htour (by rw [hleg]; rfl)⟩
    | retrying target => exact ⟨.putBack, rfl, isSome_goesOn htour (by rw [hleg]; rfl)⟩
  | none =>
    obtain ⟨p, rest, hentries⟩ := List.exists_cons_of_ne_nil (left.resolve_left fun h ↦ h htour)
    exact ⟨.take, rfl, isSome_take htour hentries⟩

/-- A line for the outbox moves, or the sending worker makes room. -/
theorem canGoOn_line (hg : Queuing g) (noCall : g.NoCall) (line : g.waiting ≠ []) :
    g.CanGoOn w := by
  cases hroom : g.outbox.hasRoom with
  | true => exact ⟨.enter, rfl, isSome_enter line (Or.inr hroom)⟩
  | false => exact canGoOn_sending noCall (Or.inr (hg.entries_ne_nil hroom))

/-- Without a line the reload goes on until everything is reloaded. -/
theorem canGoOn_reload (hg : Queuing g) (line : g.waiting = []) (left : g.isReloaded = false) :
    g.CanGoOn w := by
  have hwaiting : g.reload.waiting = false := by
    by_contra hwaits
    have hcount := hg.reload
    rw [waitsWith_of_nil line, if_pos (by simpa using hwaits)] at hcount
    cases hcount
  cases hreload : g.reload with
  | mk ahead waiting =>
    obtain rfl : waiting = false := by simpa [hreload] using hwaiting
    cases ahead with
    | nil => simp [isReloaded, hreload] at left
    | cons entry rest => exact ⟨.reload, rfl, isSome_reload hreload⟩

/-- Without a line the storing worker goes on with what it has, and with what is in the intake. -/
theorem canGoOn_storing (hg : Queuing g)
    (ending : g.storing.finished → g.intake.isOpen = false ∧ g.intake.entries = [])
    (line : g.waiting = []) (reloaded : g.isReloaded = true)
    (left : g.storing.isBusy = true ∨ g.intake.entries ≠ []) : g.CanGoOn w := by
  cases hstoring : g.storing with
  | ready =>
    have hentries := left.resolve_left (by simp [hstoring, Storing.isBusy])
    exact ⟨.receive, rfl, isSome_receive hstoring reloaded hentries⟩
  | holding s => exact ⟨.store .works, rfl, isSome_store hstoring .works⟩
  | written s targets => exact ⟨.forward, rfl, isSome_forward hstoring⟩
  | waiting =>
    have hcount := hg.storing
    rw [waitsWith_of_nil line, if_pos hstoring] at hcount
    cases hcount
  | stopping => exact ⟨.closeIntake, rfl, isSome_closeIntake hstoring⟩
  | _ =>
    have hempty := (ending (by simp [hstoring, Storing.finished, Storing.brokenOff])).2
    simp [hstoring, Storing.isBusy, hempty] at left

theorem canGoOn_of_hasWork (hg : Queuing g)
    (ending : g.storing.finished → g.intake.isOpen = false ∧ g.intake.entries = [])
    (noCall : g.NoCall) (work : g.HasWork) : g.CanGoOn w := by
  by_cases hline : g.waiting = []
  · cases hreloaded : g.isReloaded with
    | false => exact canGoOn_reload hg hline hreloaded
    | true =>
      rcases work with hintake | houtbox | hwaiting | hnot | hbusy | htour
      · exact canGoOn_storing hg ending hline hreloaded (Or.inr hintake)
      · exact canGoOn_sending noCall (Or.inr houtbox)
      · exact absurd hline hwaiting
      · simp [hreloaded] at hnot
      · exact canGoOn_storing hg ending hline hreloaded (Or.inl hbusy)
      · exact canGoOn_sending noCall (Or.inl htour)
  · exact canGoOn_line hg noCall hline

end Generation

/-! ### Over a run -/

/-- **The pipeline is never stuck on its own queues.** Whatever the capacities, the delay of retries
and the records to reload, the sending worker never waits for room: what it has to do next it can
do, and the call of a peer can end in any way. While a generation is not stopped, no call is going
on and something is left to do, one of the workers, the reload, or the first in line for the outbox
can take a step, even if a retry sleeps. -/
theorem never_stuck {d : Directory} {db : Store.Database} {w : World} {n : Nat} {g : Generation}
    (hr : Reachable (initial d db) w) (hg : w.generations[n]? = some g) :
    ((g.tour = none → g.outbox.entries ≠ [] → (w.move (.act n .take)).isSome) ∧
      ∀ t, g.tour = some t → ∀ a, t.leg.goesOn a = true → (w.move (.act n a)).isSome) ∧
    (g.NoCall → g.HasWork → ∃ a, a.isOwn = true ∧ (w.move (.act n a)).isSome) := by
  refine ⟨⟨fun hidle hentries ↦ ?_, fun t ht a hgoesOn ↦ ?_⟩, fun noCall work ↦ ?_⟩
  · obtain ⟨p, rest, hfirst⟩ := List.exists_cons_of_ne_nil hentries
    rw [Generation.isSome_move hg]
    exact Generation.isSome_take hidle hfirst
  · rw [Generation.isSome_move hg]
    exact Generation.isSome_goesOn ht hgoesOn
  · obtain ⟨a, hown, hsome⟩ :=
      Generation.canGoOn_of_hasWork (queuing hr hg) (ending_of_reaches hr hg).empty noCall work
    exact ⟨a, hown, (Generation.isSome_move hg a).trans hsome⟩

/-- Of three reloaded messages the second one is in an outbox of one place, the third one waits for
it, and so does the retry of the first one. A fourth message waits in the intake. -/
def crowdedMoves : List Move :=
  let store (id : String) (ticket : Nat) : List Move :=
    [.submit 0 { (default : Message) with id } [⟨"a", "http://a"⟩], .act 0 (.arrive ticket),
      .act 0 .accept, .act 0 .receive, .act 0 (.store .works), .act 0 .forward]
  .start {} .works :: store "1" 0 ++ store "2" 1 ++ store "3" 2 ++
    [.act 0 .drop, .start { storeCapacity := 0, sendCapacity := 0, retryDelay := 0 } .works,
      .submit 1 { (default : Message) with id := "4" } [⟨"a", "http://a"⟩], .act 1 (.arrive 6),
      .act 1 .accept, .act 1 .reload, .act 1 .take, .act 1 .reload, .act 1 .reload,
      .act 1 .attempt, .act 1 (.answer .fails), .act 1 .lookUp, .act 1 .putBack, .act 1 (.wake 0)]

theorem never_stuck_of_crowded :
    ∃ w g, Reachable (initial ⟨[]⟩ .fresh) w ∧ w.generations[1]? = some g ∧ g.NoCall ∧ g.HasWork ∧
      g.waiting.map (·.1) = [.reload, .retry] ∧ g.outbox.entries.length = 1 ∧
      g.intake.entries.length = 1 ∧ ∃ a, a.isOwn = true ∧ (w.move (.act 1 a)).isSome := by
  have hrun : ((initial ⟨[]⟩ .fresh).run (fun _ _ ↦ True) crowdedMoves).any (fun w ↦
      w.generations[1]?.any fun g ↦ g.tour = none ∧ g.HasWork ∧
        g.waiting.map (·.1) = [.reload, .retry] ∧ g.outbox.entries.length = 1 ∧
          g.intake.entries.length = 1) = true := by
    decide +kernel
  obtain ⟨w, g, hr, hg, htest⟩ := exists_of_run hrun
  obtain ⟨hidle, hwork, hline, houtbox, hintake⟩ := of_decide_eq_true htest
  have hnoCall : g.NoCall := fun t ht ↦ by simp [hidle] at ht
  exact ⟨w, g, hr, hg, hnoCall, hwork, hline, houtbox, hintake,
    (never_stuck hr hg).2 hnoCall hwork⟩

end PeerRelay.Delivery
