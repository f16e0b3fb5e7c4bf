import PeerRelay.Delivery.Step
import PeerRelay.Proofs.Store.Operations

/-!
# What an action can do

The steps of a generation as a relation: `Generation.Acts w g a c` has one case for each way in
which the action `a` can go in the world `w`, with what the way requires and with the whole change
`c`. `acts_of_act` reads an executed action as one of the cases. It is the only place where the
step functions are opened; whatever a step keeps or counts is proved by cases on the relation.

Offering a parcel to the outbox is left as a call of `Generation.offer`, which several of the cases
share. It touches the outbox and those who wait for it (`offer_eq`), and nothing else. What a tour
has behind it is left as `Tour.next` (`Tour.flatMap_next`).
-/

namespace PeerRelay.Delivery

/-- What is in the tour that goes on: what is in it between two visits, and nothing without peers
ahead. -/
theorem Tour.flatMap_next {α : Type} {f : Tour → List α} {l : List α} (t : Tour)
    (last : t.ahead = [] → l = []) (more : f { t with leg := .between } = l) :
    t.next.toList.flatMap f = l := by
  rw [Tour.next]
  split
  · rename_i hempty
    exact (last (List.isEmpty_iff.1 hempty)).symm
  · simpa using more

namespace Generation

/-! ### Offering a parcel -/

section Offer

variable (g : Generation) (who : Waiter) (p : Parcel)

/-- A parcel that is offered is lost, enters, or waits. -/
theorem offer_cases :
    (g.outbox.isOpen = false ∧ g.offer who p = g) ∨
    (g.outbox.isOpen = true ∧ g.canEnter = true ∧
      g.offer who p = { g with outbox := g.outbox.push p }) ∨
    (g.outbox.isOpen = true ∧ g.canEnter = false ∧
      g.offer who p = { g with waiting := g.waiting ++ [(who, p)] }) := by
  rw [offer]
  cases hopen : g.outbox.isOpen
  · exact Or.inl ⟨rfl, by simp⟩
  · cases henter : g.canEnter
    · exact Or.inr (Or.inr ⟨rfl, rfl, by simp⟩)
    · exact Or.inr (Or.inl ⟨rfl, rfl, by simp⟩)

/-- An offer touches the outbox and those who wait for it, and nothing else. -/
theorem offer_eq :
    g.offer who p =
      { g with outbox := (g.offer who p).outbox, waiting := (g.offer who p).waiting } := by
  rcases g.offer_cases who p with ⟨-, h⟩ | ⟨-, -, h⟩ | ⟨-, -, h⟩ <;> rw [h]

@[simp] theorem offer_settings : (g.offer who p).settings = g.settings := by rw [offer_eq]

@[simp] theorem offer_closed : (g.offer who p).closed = g.closed := by rw [offer_eq]

@[simp] theorem offer_stopped : (g.offer who p).stopped = g.stopped := by rw [offer_eq]

@[simp] theorem offer_dropped : (g.offer who p).dropped = g.dropped := by rw [offer_eq]

@[simp] theorem offer_arriving : (g.offer who p).arriving = g.arriving := by rw [offer_eq]

@[simp] theorem offer_intake : (g.offer who p).intake = g.intake := by rw [offer_eq]

@[simp] theorem offer_callers : (g.offer who p).callers = g.callers := by rw [offer_eq]

@[simp] theorem offer_storing : (g.offer who p).storing = g.storing := by rw [offer_eq]

@[simp] theorem offer_condemned : (g.offer who p).condemned = g.condemned := by rw [offer_eq]

@[simp] theorem offer_tour : (g.offer who p).tour = g.tour := by rw [offer_eq]

@[simp] theorem offer_sleeping : (g.offer who p).sleeping = g.sleeping := by rw [offer_eq]

@[simp] theorem offer_reload : (g.offer who p).reload = g.reload := by rw [offer_eq]

/-- An offer neither opens nor closes the outbox. -/
@[simp] theorem offer_isOpen : (g.offer who p).outbox.isOpen = g.outbox.isOpen := by
  rcases g.offer_cases who p with ⟨-, h⟩ | ⟨-, -, h⟩ | ⟨-, -, h⟩ <;> rw [h]
  rfl

end Offer

/-! ### Letting a participant go on -/

section Release

variable (g : Generation) (who : Waiter)

/-- Who goes on is the storing worker or the reload, and nothing else changes. -/
theorem release_eq :
    g.release who =
      { g with storing := (g.release who).storing, reload := (g.release who).reload } := by
  cases who <;> rfl

@[simp] theorem release_closed : (g.release who).closed = g.closed := by rw [release_eq]

@[simp] theorem release_stopped : (g.release who).stopped = g.stopped := by rw [release_eq]

@[simp] theorem release_dropped : (g.release who).dropped = g.dropped := by rw [release_eq]

@[simp] theorem release_arriving : (g.release who).arriving = g.arriving := by rw [release_eq]

@[simp] theorem release_intake : (g.release who).intake = g.intake := by rw [release_eq]

@[simp] theorem release_callers : (g.release who).callers = g.callers := by rw [release_eq]

@[simp] theorem release_condemned : (g.release who).condemned = g.condemned := by rw [release_eq]

@[simp] theorem release_outbox : (g.release who).outbox = g.outbox := by rw [release_eq]

@[simp] theorem release_waiting : (g.release who).waiting = g.waiting := by rw [release_eq]

@[simp] theorem release_tour : (g.release who).tour = g.tour := by rw [release_eq]

@[simp] theorem release_sleeping : (g.release who).sleeping = g.sleeping := by rw [release_eq]

/-- The storing worker goes on if it waited, and only if its own parcel entered or was lost. -/
theorem release_storing_cases :
    (g.storing = .waiting ∧ (g.release who).storing = .ready) ∨
      (g.release who).storing = g.storing := by
  cases who with
  | storing =>
    rw [release]
    by_cases hwaiting : g.storing = .waiting
    · exact Or.inl ⟨hwaiting, by simp [hwaiting]⟩
    · exact Or.inr (by simp [hwaiting])
  | reload => exact Or.inr rfl
  | retry => exact Or.inr rfl

end Release

/-! ### Putting a retry back -/

section Reinject

variable (g : Generation) (clock : Nat) (p : Parcel)

/-- A retry sleeps, or is offered to the outbox at once. -/
theorem reinject_cases :
    (∃ due, g.reinject clock p = { g with sleeping := g.sleeping ++ [(due, p)] }) ∨
      g.reinject clock p = g.offer .retry p := by
  rw [reinject]
  split
  · exact Or.inr rfl
  · exact Or.inl ⟨_, rfl⟩

/-- A retry that is put back touches the outbox, those who wait for it and those who sleep, and
nothing else. -/
theorem reinject_eq :
    g.reinject clock p =
      { g with
        outbox := (g.reinject clock p).outbox
        waiting := (g.reinject clock p).waiting
        sleeping := (g.reinject clock p).sleeping } := by
  rcases g.reinject_cases clock p with ⟨due, h⟩ | h <;> rw [h]
  rw [offer_sleeping]
  exact g.offer_eq .retry p

@[simp] theorem reinject_closed : (g.reinject clock p).closed = g.closed := by rw [reinject_eq]

@[simp] theorem reinject_stopped : (g.reinject clock p).stopped = g.stopped := by rw [reinject_eq]

@[simp] theorem reinject_dropped : (g.reinject clock p).dropped = g.dropped := by rw [reinject_eq]

@[simp] theorem reinject_arriving : (g.reinject clock p).arriving = g.arriving := by
  rw [reinject_eq]

@[simp] theorem reinject_intake : (g.reinject clock p).intake = g.intake := by rw [reinject_eq]

@[simp] theorem reinject_callers : (g.reinject clock p).callers = g.callers := by rw [reinject_eq]

@[simp] theorem reinject_storing : (g.reinject clock p).storing = g.storing := by rw [reinject_eq]

@[simp] theorem reinject_condemned : (g.reinject clock p).condemned = g.condemned := by
  rw [reinject_eq]

@[simp] theorem reinject_tour : (g.reinject clock p).tour = g.tour := by rw [reinject_eq]

@[simp] theorem reinject_reload : (g.reinject clock p).reload = g.reload := by rw [reinject_eq]

/-- A retry neither opens nor closes the outbox. -/
@[simp] theorem reinject_isOpen :
    (g.reinject clock p).outbox.isOpen = g.outbox.isOpen := by
  rcases g.reinject_cases clock p with ⟨due, h⟩ | h <;> rw [h]
  exact g.offer_isOpen .retry p

end Reinject

/-! ### Taking a peer off a message -/

/-- How taking a peer off a message in the store may go: it is done, or nothing changes. -/
def Forgets (db : Store.Database) (p : Parcel) (target : Instance) (db' : Store.Database)
    (done : Bool) : Prop :=
  (done = true ∧ Store.remove db p.message.id target.uri = (.ok (), db')) ∨
    (done = false ∧ db' = db)

/-! ### The relation -/

/-- What an action does in a world, one case for each way in which it can go. -/
inductive Acts (w : World) (g : Generation) : Action → Change → Prop
  /-- A call queues up behind those who wait for room in the intake. -/
  | arrive (s : Submission) (arriving : s ∈ g.arriving) :
      Acts w g (.arrive s.ticket)
        ⟨{ g with arriving := g.arriving.erase s, callers := g.callers ++ [.deliver s] }, w.db, []⟩
  | acceptCall (s : Submission) (rest : List Entry) (first : g.callers = .deliver s :: rest)
      (isOpen : g.intake.isOpen = true) :
      Acts w g .accept
        ⟨{ g with callers := rest, intake := g.intake.push (.deliver s) }, w.db, [.accepted s]⟩
  | acceptStop (rest : List Entry) (first : g.callers = .stop :: rest)
      (isOpen : g.intake.isOpen = true) :
      Acts w g .accept ⟨{ g with callers := rest, intake := g.intake.push .stop }, w.db, []⟩
  | refuseCall (s : Submission) (rest : List Entry) (first : g.callers = .deliver s :: rest)
      (isClosed : g.intake.isOpen = false) :
      Acts w g .accept
        ⟨{ g with callers := rest }, w.db, [.refused s.ticket (.storingEnded s.message.id)]⟩
  | refuseStop (rest : List Entry) (first : g.callers = .stop :: rest)
      (isClosed : g.intake.isOpen = false) :
      Acts w g .accept ⟨{ g with callers := rest }, w.db, []⟩
  | giveUp (ticket : Nat)
      (waits : (∃ s ∈ g.arriving, s.ticket = ticket) ∨ ∃ e ∈ g.callers, e.ticket? = some ticket) :
      Acts w g (.giveUp ticket)
        ⟨{ g with
          arriving := g.arriving.filter (·.ticket ≠ ticket)
          callers := g.callers.filter (·.ticket? ≠ some ticket) }, w.db, [.abandoned ticket]⟩
  | receiveCall (s : Submission) (rest : List Entry) (ready : g.storing = .ready)
      (reloaded : g.isReloaded = true) (first : g.intake.entries = .deliver s :: rest) :
      Acts w g .receive
        ⟨{ g with storing := .holding s, intake := { g.intake with entries := rest } }, w.db, []⟩
  | receiveStop (rest : List Entry) (ready : g.storing = .ready) (reloaded : g.isReloaded = true)
      (first : g.intake.entries = .stop :: rest) :
      Acts w g .receive
        ⟨{ g with storing := .stopping, intake := { g.intake with entries := rest } }, w.db, []⟩
  | closeIntake (stopping : g.storing = .stopping) :
      Acts w g .closeIntake
        ⟨{ g with storing := .ready, intake := { g.intake with isOpen := false } }, w.db, []⟩
  /-- Nobody is known to whom the submission could go. -/
  | storeForNobody (s : Submission) (call : StoreCall) (holding : g.storing = .holding s)
      (nobody : s.recipients w.directory = []) :
      Acts w g (.store call) ⟨{ g with storing := .ready }, w.db, [.processed s []]⟩
  | storeCrashes (s : Submission) (holding : g.storing = .holding s)
      (somebody : s.recipients w.directory ≠ []) :
      Acts w g (.store .crashes)
        ⟨{ g with storing := .crashed, intake := g.intake.abandon }, w.db,
          [.write s.ticket s.message (s.recipients w.directory) false]⟩
  /-- What the store does not take is forwarded to those it was meant for. -/
  | storeFails (s : Submission) (call : StoreCall) (holding : g.storing = .holding s)
      (somebody : s.recipients w.directory ≠ []) :
      Acts w g (.store call)
        ⟨{ g with storing := .written s (s.recipients w.directory) }, w.db,
          [.write s.ticket s.message (s.recipients w.directory) false,
            .processed s (s.recipients w.directory)]⟩
  | storeWorks (s : Submission) (record : Store.Record) (db : Store.Database)
      (holding : g.storing = .holding s) (somebody : s.recipients w.directory ≠ [])
      (written : Store.write w.db s.message (s.recipients w.directory) = (.ok record, db)) :
      Acts w g (.store .works)
        ⟨{ g with storing := .written s record.targets }, db,
          .write s.ticket s.message (s.recipients w.directory) true ::
            record.targets.map (.stored s.ticket s.message) ++ [.processed s record.targets]⟩
  | forward (s : Submission) (targets : List Instance) (written : g.storing = .written s targets)
      (p : Parcel) (parcel : p = Parcel.track w.directory s.ticket s.message targets)
      (storing : Storing) (waits : storing = if g.mustWait then .waiting else .ready) :
      Acts w g .forward ⟨{ g.offer .storing p with storing }, w.db, [.forwarded p]⟩
  | retire (ready : g.storing = .ready) (empty : g.intake.entries = [])
      (last : g.intake.isOpen = false ∨ g.dropped = true) :
      Acts w g .retire ⟨{ g with storing := .ended, intake := g.intake.abandon }, w.db, []⟩
  | cancel (condemned : g.condemned = true) (waits : g.storing = .ready ∨ g.storing = .waiting) :
      Acts w g .cancel
        ⟨{ g with
          storing := .cancelled
          intake := g.intake.abandon
          waiting := g.waiting.filter (·.1 ≠ .storing) }, w.db, []⟩
  | reload (ticket : Nat) (record : Store.Record) (rest : List (Nat × Store.Record))
      (next : g.reload = ⟨(ticket, record) :: rest, false⟩) (p : Parcel)
      (parcel : p = Parcel.track w.directory ticket record.message record.targets) :
      Acts w g .reload
        ⟨{ g.offer .reload p with reload := ⟨g.toReload rest, g.mustWait⟩ }, w.db, [.forwarded p]⟩
  | enter (who : Waiter) (p : Parcel) (rest : List (Waiter × Parcel))
      (first : g.waiting = (who, p) :: rest) (isOpen : g.outbox.isOpen = true) :
      Acts w g .enter
        ⟨{ g with waiting := rest, outbox := g.outbox.push p }.release who, w.db, []⟩
  | enterClosed (who : Waiter) (p : Parcel) (rest : List (Waiter × Parcel))
      (first : g.waiting = (who, p) :: rest) (isClosed : g.outbox.isOpen = false) :
      Acts w g .enter ⟨{ g with waiting := rest }.release who, w.db, []⟩
  | take (p : Parcel) (rest : List Parcel) (idle : g.tour = none)
      (first : g.outbox.entries = p :: rest) :
      Acts w g .take
        ⟨{ g with
          outbox := { g.outbox with entries := rest }
          tour := some ⟨p, p.targets, .between⟩ }, w.db, []⟩
  | endTour (p : Parcel) (last : g.tour = some ⟨p, [], .between⟩) :
      Acts w g .attempt ⟨{ g with tour := none }, w.db, []⟩
  | attempt (p : Parcel) (target : Instance) (ahead : List Instance)
      (next : g.tour = some ⟨p, target :: ahead, .between⟩) :
      Acts w g .attempt
        ⟨{ g with tour := some ⟨p, ahead, .calling target⟩ }, w.db,
          [.attempt p.ticket p.message target p.failures]⟩
  | callCrashes (p : Parcel) (ahead : List Instance) (target : Instance)
      (calling : g.tour = some ⟨p, ahead, .calling target⟩) :
      Acts w g (.answer .crashes) ⟨g.abortSending, w.db, []⟩
  | callDelivers (p : Parcel) (ahead : List Instance) (target : Instance)
      (calling : g.tour = some ⟨p, ahead, .calling target⟩) :
      Acts w g (.answer .delivers)
        ⟨{ g with tour := some ⟨p, ahead, .taken target⟩ }, w.db,
          [.answered p.ticket p.message target true]⟩
  | callFails (p : Parcel) (ahead : List Instance) (target : Instance)
      (calling : g.tour = some ⟨p, ahead, .calling target⟩) :
      Acts w g (.answer .fails)
        ⟨{ g with tour := some ⟨p, ahead, .failed target⟩ }, w.db,
          [.answered p.ticket p.message target false]⟩
  | announce (p : Parcel) (ahead : List Instance) (target : Instance)
      (taken : g.tour = some ⟨p, ahead, .taken target⟩) :
      Acts w g .announce
        ⟨{ g with tour := some ⟨p, ahead, .leaving target⟩ }, w.db,
          [.sent p.ticket p.message target]⟩
  /-- A peer that was known and is not known any more is given up. -/
  | giveUpPeer (p : Parcel) (ahead : List Instance) (target : Instance)
      (failed : g.tour = some ⟨p, ahead, .failed target⟩) (known : p.wasKnown target.uri = true)
      (unknown : w.directory.contains target.uri = false) :
      Acts w g .lookUp
        ⟨{ g with tour := some ⟨p, ahead, .leaving target⟩ }, w.db,
          [.dropped p.ticket p.message target]⟩
  | keepPeer (p : Parcel) (ahead : List Instance) (target : Instance)
      (failed : g.tour = some ⟨p, ahead, .failed target⟩)
      (kept : ¬ (p.wasKnown target.uri = true ∧ w.directory.contains target.uri = false)) :
      Acts w g .lookUp ⟨{ g with tour := some ⟨p, ahead, .retrying target⟩ }, w.db, []⟩
  | forget (p : Parcel) (ahead : List Instance) (target : Instance) (removal : StoreCall)
      (leaving : g.tour = some ⟨p, ahead, .leaving target⟩) (db : Store.Database) (done : Bool)
      (forgets : Forgets w.db p target db done) :
      Acts w g (.forget removal)
        ⟨{ g with tour := Tour.next ⟨p, ahead, .leaving target⟩ }, db,
          [.remove p.ticket p.message target done]⟩
  | forgetCrashes (p : Parcel) (ahead : List Instance) (target : Instance)
      (leaving : g.tour = some ⟨p, ahead, .leaving target⟩) :
      Acts w g (.forget .crashes)
        ⟨g.abortSending, w.db, [.remove p.ticket p.message target false]⟩
  | putBack (p : Parcel) (ahead : List Instance) (target : Instance)
      (retrying : g.tour = some ⟨p, ahead, .retrying target⟩) :
      Acts w g .putBack
        ⟨{ g with tour := Tour.next ⟨p, ahead, .retrying target⟩ }.reinject w.clock
          (p.retry target), w.db, []⟩
  /-- The sending worker ends where it waits, for a parcel or for an answer. -/
  | halt (stopped : g.stopped = true)
      (waits : g.tour = none ∨ ∃ p ahead target, g.tour = some ⟨p, ahead, .calling target⟩) :
      Acts w g .halt ⟨g.abortSending, w.db, []⟩
  | wake (position : Nat) (due : Nat) (p : Parcel) (sleeps : g.sleeping[position]? = some (due, p))
      (isDue : due ≤ w.clock) :
      Acts w g (.wake position)
        ⟨{ g with sleeping := g.sleeping.eraseIdx position }.offer .retry p, w.db, []⟩
  | close (running : g.closed = false) (notStopped : g.stopped = false) :
      Acts w g .close
        ⟨{ g with closed := true, callers := g.callers ++ [.stop] }, w.db, [.closing]⟩
  | finish (closed : g.closed = true) (notStopped : g.stopped = false) (outcome : Stopped)
      (ended : (g.storing = .ended ∧ outcome = .drained) ∨
        (g.storing = .crashed ∧ outcome = .cancelled)) :
      Acts w g .finish
        ⟨{ g with stopped := true, callers := g.submitters }, w.db, [.stopped outcome]⟩
  | expire (closed : g.closed = true) (notStopped : g.stopped = false) :
      Acts w g .expire
        ⟨{ g with stopped := true, callers := g.submitters, condemned := true }, w.db,
          [.stopped .cancelled]⟩
  | drop (inUse : g.dropped = false) (free : g.closed = true → g.stopped = true) :
      Acts w g .drop
        ⟨{ g with dropped := true, stopped := true, arriving := [], callers := [] }, w.db,
          (g.arriving.map (·.ticket) ++ g.callers.filterMap Entry.ticket?).map .abandoned⟩

/-! ### Reading an executed action -/

variable {w : World} {g : Generation} {c : Change}

theorem acts_of_arrive {ticket : Nat} (h : g.arrive w.db ticket = some c) :
    Acts w g (.arrive ticket) c := by
  rw [arrive] at h
  split at h
  · rename_i s hfind
    have hticket : s.ticket = ticket := by simpa using List.find?_some hfind
    cases h
    exact hticket ▸ .arrive s (List.mem_of_find?_eq_some hfind)
  · contradiction

theorem acts_of_accept (h : g.accept w.db = some c) : Acts w g .accept c := by
  rw [accept] at h
  split at h
  · contradiction
  · rename_i entry rest hcallers
    dsimp only at h
    split at h
    · rename_i hopen
      split at h
      · cases entry <;> cases h
        · exact .acceptCall _ _ hcallers hopen
        · exact .acceptStop _ hcallers hopen
      · contradiction
    · rename_i hclosed
      rw [Bool.not_eq_true] at hclosed
      cases entry <;> cases h
      · exact .refuseCall _ _ hcallers hclosed
      · exact .refuseStop _ hcallers hclosed

theorem acts_of_giveUp {ticket : Nat} (h : g.giveUp w.db ticket = some c) :
    Acts w g (.giveUp ticket) c := by
  rw [giveUp] at h
  split at h
  · rename_i hwaits
    cases h
    exact .giveUp ticket (by simpa using hwaits)
  · contradiction

theorem acts_of_receive (h : g.receive w.db = some c) : Acts w g .receive c := by
  rw [receive] at h
  split at h
  · rename_i hready
    split at h
    · contradiction
    · rename_i entry rest hentries
      cases entry <;> cases h
      · exact .receiveCall _ _ hready.1 hready.2 hentries
      · exact .receiveStop _ hready.1 hready.2 hentries
  · contradiction

theorem acts_of_closeIntake (h : g.closeIntake w.db = some c) : Acts w g .closeIntake c := by
  rw [closeIntake] at h
  split at h
  · rename_i hstopping
    cases h
    exact .closeIntake hstopping
  · contradiction

theorem acts_of_store {call : StoreCall} (h : g.store w.db w.directory call = some c) :
    Acts w g (.store call) c := by
  rw [store] at h
  split at h
  · rename_i s hholding
    cases h
    rw [storeSubmission]
    split
    · rename_i hnobody
      exact .storeForNobody s call hholding hnobody
    · rename_i hsomebody
      cases call with
      | crashes => exact .storeCrashes s hholding hsomebody
      | fails => exact .storeFails s .fails hholding hsomebody
      | works =>
        dsimp only
        split
        · rename_i fault db hwrite
          obtain rfl := Store.write_eq_error hwrite
          exact .storeFails s .works hholding hsomebody
        · rename_i record db hwrite
          exact .storeWorks s record db hholding hsomebody hwrite
  · contradiction

theorem acts_of_forward (h : g.forward w.db w.directory = some c) : Acts w g .forward c := by
  rw [forward] at h
  split at h
  · rename_i s targets hwritten
    cases h
    exact .forward s targets hwritten _ rfl _ rfl
  · contradiction

theorem acts_of_retire (h : g.retire w.db = some c) : Acts w g .retire c := by
  rw [retire] at h
  split at h
  · rename_i hguard
    cases h
    exact .retire hguard.1 hguard.2.2.1 (by simpa using hguard.2.2.2)
  · contradiction

theorem acts_of_cancel (h : g.cancel w.db = some c) : Acts w g .cancel c := by
  rw [cancel] at h
  split at h
  · rename_i hguard
    cases h
    exact .cancel hguard.1 hguard.2
  · contradiction

theorem acts_of_reload (h : g.reloadNext w.db w.directory = some c) : Acts w g .reload c := by
  rw [reloadNext] at h
  split at h
  · rename_i ticket record rest hreload
    cases h
    exact .reload ticket record rest hreload _ rfl
  · contradiction

theorem acts_of_enter (h : g.enter w.db = some c) : Acts w g .enter c := by
  rw [enter] at h
  split at h
  · contradiction
  · rename_i who p rest hwaiting
    dsimp only at h
    split at h
    · rename_i hclosed
      cases h
      exact .enterClosed who p rest hwaiting (by simpa using hclosed)
    · rename_i hopen
      split at h
      · cases h
        exact .enter who p rest hwaiting (by simpa using hopen)
      · contradiction

theorem acts_of_take (h : g.take w.db = some c) : Acts w g .take c := by
  rw [take] at h
  split at h
  · rename_i p rest htour hentries
    cases h
    exact .take p rest htour hentries
  · contradiction

theorem acts_of_attempt (h : g.attempt w.db = some c) : Acts w g .attempt c := by
  rw [attempt] at h
  split at h
  · rename_i p htour
    cases h
    exact .endTour p htour
  · rename_i p target ahead htour
    cases h
    exact .attempt p target ahead htour
  · contradiction

theorem acts_of_answer {call : PeerCall} (h : g.answer w.db call = some c) :
    Acts w g (.answer call) c := by
  rw [answer] at h
  split at h
  · rename_i p ahead target hcalling
    cases call <;> cases h
    · exact .callDelivers p ahead target hcalling
    · exact .callFails p ahead target hcalling
    · exact .callCrashes p ahead target hcalling
  · contradiction

theorem acts_of_announce (h : g.announce w.db = some c) : Acts w g .announce c := by
  rw [announce] at h
  split at h
  · rename_i p ahead target htaken
    cases h
    exact .announce p ahead target htaken
  · contradiction

theorem acts_of_lookUp (h : g.lookUp w.db w.directory = some c) : Acts w g .lookUp c := by
  rw [lookUp] at h
  split at h
  · rename_i p ahead target hfailed
    split at h
    · rename_i hdrop
      rw [Bool.and_eq_true, Bool.not_eq_true'] at hdrop
      cases h
      exact .giveUpPeer p ahead target hfailed hdrop.1 hdrop.2
    · rename_i hkeep
      rw [Bool.and_eq_true, Bool.not_eq_true'] at hkeep
      cases h
      exact .keepPeer p ahead target hfailed hkeep
  · contradiction

theorem acts_of_forget {removal : StoreCall} (h : g.forget w.db removal = some c) :
    Acts w g (.forget removal) c := by
  rw [forget] at h
  split at h
  · rename_i p ahead target hleaving
    cases removal with
    | works =>
      dsimp only at h
      split at h
      · rename_i db hremove
        cases h
        exact .forget p ahead target .works hleaving db true (Or.inl ⟨rfl, hremove⟩)
      · rename_i fault db hremove
        obtain rfl := Store.remove_eq_error hremove
        cases h
        exact .forget p ahead target .works hleaving _ false (Or.inr ⟨rfl, rfl⟩)
    | fails =>
      cases h
      exact .forget p ahead target .fails hleaving _ false (Or.inr ⟨rfl, rfl⟩)
    | crashes =>
      cases h
      exact .forgetCrashes p ahead target hleaving
  · contradiction

theorem acts_of_putBack (h : g.putBack w.db w.clock = some c) : Acts w g .putBack c := by
  rw [putBack] at h
  split at h
  · rename_i p ahead target hretrying
    cases h
    exact .putBack p ahead target hretrying
  · contradiction

theorem acts_of_halt (h : g.halt w.db = some c) : Acts w g .halt c := by
  rw [halt] at h
  split at h
  · rename_i hguard
    cases h
    refine .halt hguard.1 ?_
    have hidle := hguard.2
    rw [isSendingIdle] at hidle
    split at hidle
    · rename_i hnone
      exact Or.inl hnone
    · rename_i p ahead target hcalling
      exact Or.inr ⟨p, ahead, target, hcalling⟩
    · cases hidle
  · contradiction

theorem acts_of_wake {position : Nat} (h : g.wake w.db w.clock position = some c) :
    Acts w g (.wake position) c := by
  rw [wake] at h
  split at h
  · rename_i due p hsleeps
    split at h
    · rename_i hdue
      cases h
      exact .wake position due p hsleeps hdue
    · contradiction
  · contradiction

theorem acts_of_close (h : g.close w.db = some c) : Acts w g .close c := by
  rw [close] at h
  split at h
  · contradiction
  · rename_i hguard
    cases h
    exact .close (by simp_all) (by simp_all)

theorem acts_of_finish (h : g.finish w.db = some c) : Acts w g .finish c := by
  rw [finish] at h
  split at h
  · rename_i hguard
    cases h
    refine .finish hguard.1 (by simpa using hguard.2.1) _ ?_
    rcases hguard.2.2 with hended | hcrashed
    · exact Or.inl ⟨hended, by simp [hended]⟩
    · exact Or.inr ⟨hcrashed, by simp [hcrashed]⟩
  · contradiction

theorem acts_of_expire (h : g.expire w.db = some c) : Acts w g .expire c := by
  rw [expire] at h
  split at h
  · rename_i hguard
    cases h
    exact .expire hguard.1 (by simpa using hguard.2)
  · contradiction

theorem acts_of_drop (h : g.drop w.db = some c) : Acts w g .drop c := by
  rw [drop] at h
  split at h
  · contradiction
  · rename_i hguard
    cases h
    exact .drop (by simp_all) (by simp_all)

/-- An executed action is one of the cases. -/
theorem acts_of_act {a : Action} (h : g.act w a = some c) : Acts w g a c := by
  cases a with
  | arrive ticket => exact acts_of_arrive h
  | accept => exact acts_of_accept h
  | giveUp ticket => exact acts_of_giveUp h
  | receive => exact acts_of_receive h
  | closeIntake => exact acts_of_closeIntake h
  | store call => exact acts_of_store h
  | forward => exact acts_of_forward h
  | retire => exact acts_of_retire h
  | cancel => exact acts_of_cancel h
  | reload => exact acts_of_reload h
  | enter => exact acts_of_enter h
  | take => exact acts_of_take h
  | attempt => exact acts_of_attempt h
  | answer call => exact acts_of_answer h
  | announce => exact acts_of_announce h
  | lookUp => exact acts_of_lookUp h
  | forget removal => exact acts_of_forget h
  | putBack => exact acts_of_putBack h
  | halt => exact acts_of_halt h
  | wake position => exact acts_of_wake h
  | close => exact acts_of_close h
  | finish => exact acts_of_finish h
  | expire => exact acts_of_expire h
  | drop => exact acts_of_drop h

end Generation

end PeerRelay.Delivery
