import PeerRelay.Delivery.Step

/-!
# The delivery pipeline: a schedule

One particular order of moves, on a clock of its own. At each instant the participants act until
nobody can go on; only then time passes, up to the next retry that falls due. Among those who can
act at an instant, a sending worker that got an answer comes first, then due retries, in the order
in which they failed, then who waits for room, then the storing worker until it must wait, then the
sending worker. Older generations come before younger ones. A worker that is told to stop does so at
the same instant.

How the calls of the store and of the peers go is laid down in a script. While the peers are on
hold, a call that was begun is not answered; they may also take time to answer.
-/

namespace PeerRelay.Delivery

/-- How the calls of the store and of the peers go. -/
structure Script where
  /-- No call of a peer is answered. -/
  onHold : Bool := false
  /-- No peer can be reached at all. -/
  offline : Bool := false
  /-- The URIs that cannot be reached at all. -/
  unreachable : List String := []
  /-- How many of the next calls of a URI fail, and how. -/
  failing : List (String × Nat × DeliveryFault) := []
  /-- How much time passes between two answers, in milliseconds. -/
  latency : Nat := 0
  /-- No call is answered before this time. -/
  silentUntil : Nat := 0
  writesFail : Bool := false
  removalsFail : Bool := false
  loadFails : Bool := false
  writesCrash : Bool := false
  callsCrash : Bool := false

namespace Script

/-- How a write goes. -/
def onWrite (s : Script) : StoreCall :=
  if s.writesCrash then .crashes else if s.writesFail then .fails else .works

/-- How the removal of a peer goes. -/
def onRemoval (s : Script) : StoreCall :=
  if s.removalsFail then .fails else .works

/-- How loading goes. -/
def onLoad (s : Script) : StoreCall :=
  if s.loadFails then .fails else .works

/-- How the call of a peer goes, and the script for the calls after it. -/
def onCall (s : Script) (uri : String) : PeerCall × Script :=
  if s.callsCrash then (.crashes, s)
  else if s.offline || s.unreachable.contains uri then (.fails, s)
  else match s.failing.lookup uri with
    | some (n + 1, fault) =>
      (.fails, { s with failing := (uri, n, fault) :: s.failing.filter (·.1 ≠ uri) })
    | _ => (.delivers, s)

/-- Lets the next calls of a URI fail, in place of what was said of it before. -/
def failNext (s : Script) (uri : String) (count : Nat) (fault : DeliveryFault) : Script :=
  { s with failing := (uri, count, fault) :: s.failing.filter (·.1 ≠ uri) }

/-- Says whether a URI can be reached. -/
def setReachable (s : Script) (uri : String) (reachable : Bool) : Script :=
  let others := s.unreachable.filter (· ≠ uri)
  { s with unreachable := if reachable then others else uri :: others }

end Script

/-- A world with a script, and the generation that can be submitted to, if there is one. -/
structure Stage where
  world : World
  script : Script
  current : Option Nat

namespace Stage

/-- A stage on which nothing was started. -/
def initial (directory : Directory) (db : Store.Database) : Stage :=
  ⟨.initial directory db, {}, none⟩

/-- Lets a participant of a generation act. -/
def act? (s : Stage) (n : Nat) (a : Action) : Option Stage :=
  (s.world.act n a).map fun world => { s with world }

/-- Answers the pending call of a generation as the script says, unless the peers are on hold or
take more time. -/
def answer? (s : Stage) (n : Nat) : Option Stage := do
  if s.script.onHold || s.world.clock < s.script.silentUntil then none
  let g ← s.world.generations[n]?
  let target ← (← g.tour).leg.awaited?
  let (call, script) := s.script.onCall target.uri
  let script := { script with silentUntil := s.world.clock + script.latency }
  { s with script }.act? n (.answer call)

/-- What the sending worker of a generation does next after an answer, before it may wait again. -/
def concluding? (s : Stage) (n : Nat) : Option Stage :=
  s.act? n .announce <|> s.act? n .lookUp <|> s.act? n (.forget s.script.onRemoval) <|>
    s.act? n .putBack

/-- The next act of the storing worker of a generation. -/
def storing? (s : Stage) (n : Nat) : Option Stage :=
  s.act? n .reload <|> s.act? n .receive <|> s.act? n .closeIntake <|>
    s.act? n (.store s.script.onWrite) <|> s.act? n .forward <|> s.act? n .retire

/-- The next act of the sending worker of a generation. -/
def sending? (s : Stage) (n : Nat) : Option Stage :=
  s.answer? n <|> s.act? n .attempt <|> s.act? n .take

/-- The first generation that can do what is asked for. -/
def anyGeneration (s : Stage) (f : Nat → Option Stage) : Option Stage :=
  (List.range s.world.generations.length).findSome? f

/-- The next act of whoever passes parcels on: a sending worker that got an answer, retries that are
due, and who waits for room. -/
def passing? (s : Stage) : Option Stage :=
  s.anyGeneration s.concluding? <|> s.anyGeneration (s.act? · (.wake 0)) <|>
    s.anyGeneration (s.act? · .enter)

/-- The next act of a storing worker, before which parcels are passed on. -/
def storingFirst? (s : Stage) : Option Stage :=
  s.passing? <|> s.anyGeneration s.storing?

/-- The next act at this instant. -/
def next? (s : Stage) : Option Stage :=
  s.storingFirst? <|> s.anyGeneration s.sending?

/-- Repeats an act as long as it is possible, at most `fuel` times. -/
def exhaust (f : Stage → Option Stage) : Nat → Stage → Stage
  | 0, s => s
  | fuel + 1, s =>
    match f s with
    | some s => exhaust f fuel s
    | none => s

/-- A bound on the acts of one instant. -/
def actsPerInstant : Nat := 10000000

/-- Lets everybody act until nothing is left to do at this instant. -/
def settle (s : Stage) : Stage :=
  exhaust next? actsPerInstant s

/-- The time at which the next retry falls due, or a peer may answer. -/
def nextDue? (s : Stage) : Option Nat :=
  let answers := if s.world.clock < s.script.silentUntil then [s.script.silentUntil] else []
  (answers ++ (s.world.generations.flatMap (·.sleeping)).map (·.1)).min?

/-- Lets time pass up to an instant. -/
def waitUntil (s : Stage) (instant : Nat) : Stage :=
  { s with world := { s.world with clock := max s.world.clock instant } }

/-- Lets everybody act, and time pass to the next retry and the next until `deadline`, but no
longer than until `done`; `fuel` bounds the number of instants. -/
def runUntil (done : Stage → Bool) (deadline : Nat) : Nat → Stage → Stage
  | 0, s => s
  | fuel + 1, s =>
    let s := s.settle
    if done s then s
    else match s.nextDue? with
      | some due =>
        if due ≤ deadline then runUntil done deadline fuel (s.waitUntil due)
        else s.waitUntil deadline
      | none => s.waitUntil deadline

/-- Lets `millis` pass; what falls due at the end still happens. -/
def advance (s : Stage) (millis : Nat) : Stage :=
  let deadline := s.world.clock + millis
  (runUntil (fun _ => false) deadline (millis + 2) s).settle

/-! ### Submitting -/

/-- What came of a submission. -/
inductive Submitted where
  | accepted
  | refused (fault : QueueFault)
  /-- The caller gave up waiting for room; nothing was submitted. -/
  | abandoned
deriving DecidableEq, Repr

/-- What is known of the submission with a ticket. -/
def submitted? (s : Stage) (ticket : Nat) : Option Submitted :=
  s.world.trace.findSome? fun
    | (_, .accepted submission) => if submission.ticket = ticket then some .accepted else none
    | (_, .refused t fault) => if t = ticket then some (.refused fault) else none
    | _ => none

/-- Lets the first caller in, if there is room. -/
def acceptCaller (s : Stage) (n : Nat) : Stage :=
  (s.act? n .accept).getD s

/-- Whether a time is before the deadline, if there is one. -/
def isBefore (time : Nat) (deadline : Option Nat) : Bool :=
  deadline.all (time < ·)

/-- Lets time pass up to the deadline, if there is one. -/
def waitOut (s : Stage) (deadline : Option Nat) : Stage :=
  deadline.elim s s.waitUntil

/-- Waits for room until the deadline, or without one as long as anything happens. The storing
workers go on until they must wait before the caller looks again. -/
def awaitRoom (n ticket : Nat) (deadline : Option Nat) : Nat → Stage → Stage
  | 0, s => s
  | fuel + 1, s =>
    let s := (exhaust storingFirst? actsPerInstant s).acceptCaller n
    if (s.submitted? ticket).isSome then s
    else match s.anyGeneration s.sending? with
      | some s => awaitRoom n ticket deadline fuel s
      | none =>
        match s.nextDue? with
        | some due =>
          if isBefore due deadline then awaitRoom n ticket deadline fuel (s.waitUntil due)
          else s.waitOut deadline
        | none => s.waitOut deadline

/-- Submits a message to the current generation. The caller waits for room, and gives up when its
patience is over, in milliseconds. Without a limit it gives up only if nothing happens any more, so
that it would wait forever. -/
def submit (s : Stage) (m : Message) (targets : List Instance) (patience : Option Nat) :
    Option (Submitted × Stage) := do
  let n ← s.current
  let ticket := s.world.nextTicket
  let world ← s.world.submit n m targets
  let s := { s with world }
  let s := ((s.act? n (.arrive ticket)).getD s).acceptCaller n
  match s.submitted? ticket with
  | some outcome => return (outcome, s)
  | none =>
    let s := awaitRoom n ticket (patience.map (s.world.clock + ·)) actsPerInstant s
    match s.submitted? ticket with
    | some outcome => return (outcome, s)
    | none => return (.abandoned, (s.act? n (.giveUp ticket)).getD s)

/-! ### Starting and stopping -/

/-- Lets the sending worker of a stopped generation go on to where it waits, and end there. -/
def halt (s : Stage) (n : Nat) : Stage :=
  let s := (s.act? n .attempt).getD s
  (s.act? n .halt).getD s

/-- Drops the current generation. -/
def drop (s : Stage) : Stage :=
  match s.current with
  | some n => { ((s.act? n .drop).getD s).halt n with current := none }
  | none => s

/-- Starts a generation; one that is still current is dropped. -/
def start (s : Stage) (settings : Settings) : Stage :=
  let s := s.drop
  let world := s.world.start settings s.script.onLoad
  let n := world.generations.length - 1
  let s := { s with world, current := some n }
  exhaust (fun s => s.passing? <|> s.act? n .reload) actsPerInstant s

/-- Whether the storing worker of a generation ended or broke off. -/
def hasStored (s : Stage) (n : Nat) : Bool :=
  match s.world.generations[n]? with
  | some g => g.storing = .ended ∨ g.storing = .crashed
  | none => true

/-- Waits until the storing worker has ended, while the order to stop is still to be let in. -/
def awaitStored (n deadline : Nat) : Nat → Stage → Stage
  | 0, s => s
  | fuel + 1, s =>
    let s := (s.acceptCaller n).settle
    if s.hasStored n then s
    else match s.act? n .accept with
      | some s => awaitStored n deadline fuel s
      | none =>
        match s.nextDue? with
        | some due =>
          if due < deadline then awaitStored n deadline fuel (s.waitUntil due)
          else s.waitUntil deadline
        | none => s.waitUntil deadline

/-- Shuts the current generation down. -/
def shutdown (s : Stage) : Option (Stopped × Stage) := do
  let n ← s.current
  let g ← s.world.generations[n]?
  match s.act? n .close with
  | none => return (.alreadyStopped, s)
  | some s =>
    let timeout := g.settings.shutdownTimeout
    let s := if timeout = 0 then s.acceptCaller n
      else awaitStored n (s.world.clock + timeout) actsPerInstant s
    let ended : Bool := match s.world.generations[n]? with
      | some g => g.storing == .ended
      | none => false
    match s.act? n .finish with
    | some s => return (if ended then .drained else .cancelled, s.halt n)
    | none =>
      let s := (s.act? n .expire).getD s
      return (.cancelled, ((s.act? n .cancel).getD s).halt n)

/-! ### What can be read off -/

/-- What is to be read off the current generation. -/
structure Status where
  storePending : Nat
  sendPending : Nat
  shutDown : Bool
deriving DecidableEq, Repr

/-- The length of the queues of the current generation. -/
def status? (s : Stage) : Option Status := do
  let g ← s.world.generations[← s.current]?
  return ⟨g.intake.entries.length, g.outbox.entries.length, g.closed⟩

end Stage

end PeerRelay.Delivery
