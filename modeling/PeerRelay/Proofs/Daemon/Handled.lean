import PeerRelay.Proofs.Daemon.Requests
import PeerRelay.Proofs.Delivery.Enqueuing
import PeerRelay.Proofs.Dispatch
import PeerRelay.Proofs.Recovery.Serving

/-!
# Recovery requests that are reported as handled

A recovery request is dispatched to a receiver that runs the handlers of a registry and hands the
notice to a pipeline. What of the state is the pipeline is left open at first. All that is asked for
is that the sender hands messages to it, and that handlers leave a pipeline that is a possible one,
whatever they do (`Wired`). The receiver does so too then (`Wired.keeps_receiver`), so that the
pipeline is a possible one after any history.

The receiver succeeds if and only if everything that it needs does and the notice was accepted
(`Wired.receiver_ok_iff`). Otherwise no notice was handed over, or it was for nothing
(`Wired.unsent_of_error`). So it is for every sender that hands messages to a pipeline, in whatever
order the pipeline goes on meanwhile, and after any history of registrations and dispatches
(`handled_iff_completed`). The sender of a daemon is one of them (`enqueues_enqueue`).
-/

namespace PeerRelay

open Delivery World Dispatcher

namespace Recovery

variable {σ : Type} {world : σ → World} {registry : σ → Registry σ} {send : Message → Task σ Unit}
  {stamp : σ → Message.Stamp} {request : Received} {s s' s₁ s₂ : σ} {window : Window}
  {handlers sorted : List (Handler σ)} {result : Except Failure Unit} {failure : Failure}

/-- The receiver of recovery requests. Handlers may be registered until a request comes. -/
def receiver (registry : σ → Registry σ) (send : Message → Task σ Unit)
    (stamp : σ → Message.Stamp) : Receiver σ := fun request ↦ do
  let s ← get
  serve (registry s).handlers send (stamp s) request

/-- The receiver goes one of the ways in which a request is served. -/
theorem exists_serves_of_run
    (hrun : (receiver registry send stamp request).run.run s = (result, s')) :
    ∃ calls, Serves (registry s).handlers send (stamp s) request s result s' calls := by
  obtain ⟨result₁, s₁, calls, hserves⟩ :=
    exists_serves (registry s).handlers send (stamp s) request s
  obtain ⟨rfl, rfl⟩ := Prod.mk.inj (hserves.run_eq.symm.trans hrun)
  exact ⟨calls, hserves⟩

/-! ### The pipeline behind a receiver -/

theorem Passes.keeps {P : σ → Prop} (h : Passes window request sorted s s₁)
    (hkeep : ∀ h ∈ sorted, Keeps P (h.run window request)) (hs : P s) : P s₁ := by
  induction h with
  | nil => exact hs
  | cons hrun _ ih =>
    have hfirst := hkeep _ List.mem_cons_self _ hs
    rw [hrun] at hfirst
    exact ih (fun h hmem ↦ hkeep h (List.mem_cons_of_mem _ hmem)) hfirst

/-- Each handler that there is keeps a property. -/
def HandlersKeep (P : σ → Prop) (registry : σ → Registry σ) : Prop :=
  ∀ s handlers, (registry s).handlers = .ok handlers →
    ∀ h ∈ handlers, ∀ window request, Keeps P (h.run window request)

/-- The sender hands messages to the pipeline, and handlers leave a possible one. -/
structure Wired (world : σ → World) (registry : σ → Registry σ) (send : Message → Task σ Unit) :
    Prop where
  sends : ∀ m s, (world s).Possible →
    Enqueues m (world s) ((send m).run.run s).1 (world ((send m).run.run s).2)
  handlers : HandlersKeep (fun s ↦ (world s).Possible) registry

/-- There are handlers to be had, the request has a window, every handler succeeded, and the
pipeline accepted the notice. -/
def Completed (world : σ → World) (registry : σ → Registry σ) (stamp : σ → Message.Stamp)
    (request : Received) (s s' : σ) : Prop :=
  ∃ handlers sorted window s₁ n, (registry s).handlers = .ok handlers ∧
    HasWindow request window ∧ StablySorted handlers sorted ∧ Passes window request sorted s s₁ ∧
    (n, .accepted ⟨(world s₁).nextTicket, window.finished (stamp s) request, []⟩) ∈
      (world s').trace

/-- No notice is queued: none was handed over, or it was for nothing. -/
inductive Unsent (world : σ → World) (registry : σ → Registry σ) (send : Message → Task σ Unit)
    (stamp : σ → Message.Stamp) (request : Received) (s : σ) (failure : Failure) (s' : σ) : Prop
  | kept (calls : List (Call σ))
      (serves : (serveWatched (registry s).handlers send (stamp s) request).run.run ⟨s, []⟩ =
        (.error failure, ⟨s', calls⟩))
      (unsent : ∀ notice, .send notice ∉ calls)
  | inVain (handlers sorted : List (Handler σ)) (window : Window) (s₁ : σ)
      (provided : (registry s).handlers = .ok handlers) (hasWindow : HasWindow request window)
      (inOrder : StablySorted handlers sorted) (passes : Passes window request sorted s s₁)
      (sent : (send (window.finished (stamp s) request)).run.run s₁ = (.error failure, s'))
      (inVain : InVain (world s₁) (world s'))

theorem send_not_mem_callsOf (window : Window) (request : Received) (handlers : List (Handler σ))
    (notice : Message) : .send notice ∉ callsOf window request handlers := by
  simp [callsOf]

namespace Wired

/-- When all handlers have passed, the notice is handed to a possible pipeline. -/
theorem enqueues (hwired : Wired world registry send)
    (hprovided : (registry s).handlers = .ok handlers) (hsorted : StablySorted handlers sorted)
    (hpasses : Passes window request sorted s s₁)
    (hsend : (send (window.finished (stamp s) request)).run.run s₁ = (result, s₂))
    (hs : (world s).Possible) : (world s₁).Possible ∧
      Enqueues (window.finished (stamp s) request) (world s₁) result (world s₂) := by
  have hpassed : (world s₁).Possible := hpasses.keeps (fun h hmem ↦
    hwired.handlers s _ hprovided h (hsorted.perm.subset hmem) _ _) hs
  have hsent := hwired.sends (window.finished (stamp s) request) s₁ hpassed
  rw [hsend] at hsent
  exact ⟨hpassed, hsent⟩

/-- The receiver leaves a possible pipeline. -/
theorem keeps_receiver (hwired : Wired world registry send) (stamp : σ → Message.Stamp)
    (request : Received) :
    Keeps (fun s ↦ (world s).Possible) (receiver registry send stamp request) := by
  intro s hs
  obtain ⟨result, s', hrun⟩ : ∃ result s',
      (receiver registry send stamp request).run.run s = (result, s') := ⟨_, _, rfl⟩
  obtain ⟨calls, hserves⟩ := exists_serves_of_run hrun
  rw [hrun]
  cases hserves with
  | unprovided hprovided => exact hs
  | lacking hprovided hlacking => exact hs
  | @failing handlers before after h window s₁ s₂ failure hprovided hwindow hsorted hbefore
      hfails =>
    have hkeep : ∀ h' ∈ before ++ h :: after, Keeps (fun s ↦ (world s).Possible)
        (h'.run window request) := fun h' hmem ↦
      hwired.handlers s _ hprovided h' (hsorted.perm.subset hmem) _ _
    have hpassed := hbefore.keeps (fun h' hmem ↦ hkeep h' (List.mem_append_left _ hmem)) hs
    have hfailed := hkeep h (List.mem_append_right _ List.mem_cons_self) _ hpassed
    rwa [hfails] at hfailed
  | finished hprovided hwindow hsorted hpasses hsend =>
    obtain ⟨hpassed, hsent⟩ := hwired.enqueues hprovided hsorted hpasses hsend hs
    exact hpassed.trans hsent.reachable

/-- The receiver succeeds if and only if the request is completed. -/
theorem receiver_ok_iff (hwired : Wired world registry send) (hs : (world s).Possible)
    (hrun : (receiver registry send stamp request).run.run s = (result, s')) :
    result = .ok () ↔ Completed world registry stamp request s s' := by
  constructor
  · rintro rfl
    obtain ⟨calls, hserves⟩ := exists_serves_of_run hrun
    cases hserves with
    | finished hprovided hwindow hsorted hpasses hsend =>
      obtain ⟨hpassed, hsent⟩ := hwired.enqueues hprovided hsorted hpasses hsend hs
      obtain ⟨n, haccepted⟩ := (hsent.ok_iff hpassed).1 rfl
      exact ⟨_, _, _, _, n, hprovided, hwindow, hsorted, hpasses, haccepted⟩
  · rintro ⟨handlers, sorted, window, s₁, n, hprovided, hwindow, hsorted, hpasses, haccepted⟩
    obtain ⟨result, s₂, hsend⟩ : ∃ result s₂,
        (send (window.finished (stamp s) request)).run.run s₁ = (result, s₂) := ⟨_, _, rfl⟩
    have hserves := Serves.finished hprovided hwindow hsorted hpasses hsend
    obtain ⟨rfl, rfl⟩ := Prod.mk.inj (hserves.run_eq.symm.trans hrun)
    obtain ⟨hpassed, hsent⟩ := hwired.enqueues hprovided hsorted hpasses hsend hs
    exact (hsent.ok_iff hpassed).2 ⟨n, haccepted⟩

/-- If the receiver fails, no notice is queued. -/
theorem unsent_of_error (hwired : Wired world registry send) (hs : (world s).Possible)
    (hrun : (receiver registry send stamp request).run.run s = (.error failure, s')) :
    Unsent world registry send stamp request s failure s' := by
  obtain ⟨calls, hserves⟩ := exists_serves_of_run hrun
  have hwatched := hserves.watched
  cases hserves with
  | unprovided hprovided => exact .kept _ hwatched fun _ ↦ List.not_mem_nil
  | lacking hprovided hlacking => exact .kept _ hwatched fun _ ↦ List.not_mem_nil
  | failing hprovided hwindow hsorted hbefore hfails =>
    exact .kept _ hwatched (send_not_mem_callsOf _ _ _)
  | finished hprovided hwindow hsorted hpasses hsend =>
    obtain ⟨hpassed, hsent⟩ := hwired.enqueues hprovided hsorted hpasses hsend hs
    exact .inVain _ _ _ _ hprovided hwindow hsorted hpasses hsend (hsent.inVain hpassed)

/-- A request that goes to the receiver is reported as handled if it is completed, and otherwise it
fails. -/
theorem reported_of_dispatches {n n' : Noted σ} {outcome : Outcome σ}
    (hwired : Wired world registry send) (hs : (world n.state).Possible)
    (h : Dispatches request n (some (receiver registry send stamp)) outcome n') :
    (.inbound .handled request ∈ outcome.events ↔
      Completed world registry stamp request n.state outcome.state) ∧
    (.inbound .handled request ∉ outcome.events → ∃ failure, outcome.result = .error failure ∧
      Unsent world registry send stamp request n.state failure outcome.state) := by
  cases h with
  | @known _ result s' hrun =>
    rw [mem_reported]
    refine ⟨hwired.receiver_ok_iff hs hrun, fun hfailed ↦ ?_⟩
    cases result with
    | ok _ => exact absurd rfl hfailed
    | error failure => exact ⟨failure, rfl, hwired.unsent_of_error hs hrun⟩

end Wired

/-- **A recovery request is reported as handled if and only if its answer was accepted.** Receivers
are registered and messages are dispatched in any order, while others act on the pipeline; the
sender of the receiver hands messages to the pipeline, in any of the ways in which a call may go.
Each dispatch calls the receiver that was registered last for the type, once and behind the event
that the message came, and returns what it returns; if the type is unknown then nobody is called and
nothing happens. A recovery request is reported as handled if there are handlers to be had, it has a
window, every handler succeeds and the pipeline accepts the notice, and not otherwise; it fails
then, and no notice is queued, then or later. -/
theorem handled_iff_completed {s₀ : σ} {history : List (Use σ)}
    (hwired : Wired world registry send) (hpossible : (world s₀).Possible)
    (huses : ∀ u ∈ history, u.Keeps (fun s ↦ (world s).Possible) ∨
      ∃ kind, u = .register kind (receiver registry send stamp)) (r : Received) :
    let before := Session.after s₀ history
    let outcome := before.dispatcher.dispatch r before.noted.state
    Dispatches r before.noted (lastRegistered r.message.kind history) outcome
      (Session.after s₀ (history ++ [.dispatch r])).noted ∧
    (lastRegistered r.message.kind history = some (receiver registry send stamp) →
      (.inbound .handled r ∈ outcome.events ↔
        Completed world registry stamp r before.noted.state outcome.state) ∧
      (.inbound .handled r ∉ outcome.events → ∃ failure, outcome.result = .error failure ∧
        Unsent world registry send stamp r before.noted.state failure outcome.state)) := by
  have hdispatches := dispatches_after s₀ history r
  refine ⟨hdispatches, fun hlast ↦ ?_⟩
  dsimp only at hdispatches
  rw [hlast] at hdispatches
  refine hwired.reported_of_dispatches (after_induct (P := fun s ↦ (world s).Possible) hpossible
    fun u hu ↦ ?_) hdispatches
  rcases huses u hu with hkeeps | ⟨kind, rfl⟩
  · exact hkeeps
  · exact hwired.keeps_receiver stamp

end Recovery

namespace Daemon

open Settings

/-! ### The pipeline of a daemon -/

variable {σ : Type}

/-- The pipeline is one that the moves of some pipeline lead to. -/
def Running.Possible (s : Running σ) : Prop :=
  s.stage.world.Possible

theorem run_enqueue (m : Message) (s : Running σ) : (enqueue m).run.run s =
    ((s.stage.submit m [] none).elim (.error (.queueing (.shutDown m.id)), s) fun answer ↦
      (answer.1.result (.queueing (.reported s!"No room for message [{m.id}]")),
        { s with stage := answer.2.settle })) := by
  have hread : (get : Task (Running σ) (Running σ)).run.run s = (.ok s, s) := rfl
  rw [enqueue, run_bind, hread]
  dsimp only
  cases s.stage.submit m [] none with
  | none => rfl
  | some answer =>
    obtain ⟨outcome, stage⟩ := answer
    cases outcome <;> rfl

/-- The sender of a daemon hands messages to its pipeline. -/
theorem enqueues_enqueue (m : Message) (s : Running σ) (hs : s.Possible) :
    Enqueues m s.stage.world ((enqueue m).run.run s).1 ((enqueue m).run.run s).2.stage.world := by
  rw [run_enqueue]
  cases hsubmit : s.stage.submit m [] none with
  | none => exact .nowhere _
  | some answer =>
    have hsettled := Stage.leads_settle allowsActs_any answer.2
    exact Stage.enqueues_of_submit hs hsubmit hsettled.reaches _

theorem keeps_enqueue (m : Message) : Keeps (σ := Running σ) Running.Possible (enqueue m) :=
  fun s hs ↦ hs.trans (enqueues_enqueue m s hs).reachable

theorem wired_enqueue {registry : Running σ → Recovery.Registry (Running σ)}
    (hhandlers : Recovery.HandlersKeep Running.Possible registry) :
    Recovery.Wired (·.stage.world) registry enqueue :=
  ⟨enqueues_enqueue, hhandlers⟩

/-! ### An example -/

/-- A handler that sends a message again. -/
def resending : Recovery.Handler (Running Unit) :=
  ⟨"all", 0, fun _ _ ↦ enqueue default⟩

/-- The handlers that there are. -/
def onlyResending (_ : Running Unit) : Recovery.Registry (Running Unit) :=
  .intact [resending]

/-- When notices are made. -/
def fixedStamp (_ : Running Unit) : Message.Stamp :=
  ⟨"f1", default⟩

/-- A receiver that fails. -/
def refusing : Receiver (Running Unit) := fun _ ↦
  throw (.configuration .poisonedHandlers)

/-- A pipeline whose peer cannot be reached. -/
def started : Running Unit :=
  ⟨startPipeline onePeer unreached .fresh, ()⟩

/-- The pipeline is stopped. -/
def stopping (s : Running Unit) : Running Unit :=
  { s with stage := (s.stage.shutdown.map (·.2)).getD s.stage }

/-- The request of the peer. -/
def inboundRequest : Received :=
  askedRequest.receivedFrom "http://b"

/-- The receiver of requests takes the place of another one. -/
def replacing : List (Use (Running Unit)) :=
  [.register Recovery.requestKind refusing,
    .register Recovery.requestKind (Recovery.receiver onlyResending enqueue fixedStamp)]

/-- Then the request comes, and the pipeline is stopped. -/
def stoppedAfter : List (Use (Running Unit)) :=
  replacing ++ [.dispatch inboundRequest, .meanwhile stopping]

/-- What comes of the request after some uses. -/
def answered (history : List (Use (Running Unit))) : Dispatcher.Outcome (Running Unit) :=
  let before := Session.after started history
  before.dispatcher.dispatch inboundRequest before.noted.state

theorem keeps_stopping (s : Running Unit) (hs : s.Possible) : (stopping s).Possible := by
  have hleads : Stage.Leads (fun _ _ ↦ True) s.stage (stopping s).stage := by
    refine Stage.leads_getD fun stage hstage ↦ ?_
    obtain ⟨⟨outcome, _⟩, hshutdown, rfl⟩ := Option.map_eq_some_iff.1 hstage
    exact (Stage.leads_of_shutdown allowsActs_any hshutdown).1
  exact hs.trans hleads.reaches

/-- The request is handled, and when it comes again behind the stop it is not. -/
theorem handled_iff_completed_of_stopping :
    Recovery.Completed (·.stage.world) onlyResending fixedStamp inboundRequest started
      (answered replacing).state ∧
    ∃ failure, (answered stoppedAfter).result = .error failure ∧
      Recovery.Unsent (·.stage.world) onlyResending enqueue fixedStamp inboundRequest
        (Session.after started stoppedAfter).noted.state failure (answered stoppedAfter).state := by
  have hpossible : started.Possible :=
    ⟨_, _, (reaches_startPipeline onePeer unreached .fresh).mono fun _ _ _ ↦ trivial⟩
  have hhandlers : Recovery.HandlersKeep Running.Possible onlyResending := by
    rintro s handlers ⟨⟩ h hmem window request
    obtain rfl := List.mem_singleton.1 hmem
    exact keeps_enqueue default
  have huses : ∀ u ∈ stoppedAfter, u.Keeps Running.Possible ∨
      ∃ kind, u = .register kind (Recovery.receiver onlyResending enqueue fixedStamp) := by
    simp only [stoppedAfter, replacing, List.cons_append, List.nil_append, List.forall_mem_cons]
    exact ⟨Or.inl fun _ _ hs ↦ hs, Or.inr ⟨_, rfl⟩, Or.inl trivial, Or.inl keeps_stopping,
      fun _ hu ↦ nomatch hu⟩
  obtain ⟨-, hfirst⟩ := Recovery.handled_iff_completed (wired_enqueue hhandlers) hpossible
    (fun u hu ↦ huses u (List.mem_append_left _ hu)) inboundRequest
  obtain ⟨-, hsecond⟩ :=
    Recovery.handled_iff_completed (wired_enqueue hhandlers) hpossible huses inboundRequest
  have hhandled : .inbound .handled inboundRequest ∈ (answered replacing).events := by
    decide +kernel
  have hstopped : .inbound .handled inboundRequest ∉ (answered stoppedAfter).events := by
    decide +kernel
  exact ⟨(hfirst rfl).1.1 hhandled, (hsecond rfl).2 hstopped⟩

end Daemon

end PeerRelay
