import PeerRelay.Delivery.Basic

/-!
# The delivery pipeline: steps

What each participant may do next. A step that is not possible in a state is `none`; whoever may
step is chosen outside, so that every interleaving is a sequence of moves. Whether a call of the
store or of a peer succeeds is part of the move.

Each use of what participants share is a step of its own. A call looks whether the pipeline is
open in one step and queues up in another; the storing worker takes an entry, writes it and offers
the parcel in steps of their own, and closes the intake in a step after the one in which it took
the order to stop; the sending worker takes a parcel, starts a call and gets the answer in steps of
their own, and so it announces a delivery, looks whether a peer is still known, takes a peer off a
message and puts a retry back.

Nobody waits for a worker that is told to stop. A shutdown that takes too long condemns the storing
worker: it is cancelled where it waits, for an entry or for room, and may go on until then. A
pipeline that is stopped or dropped lets the sending worker end where it waits, for a parcel or for
an answer; until then it may go on, also while the next generation starts.
-/

namespace PeerRelay.Delivery

/-- How a call of the store goes. -/
inductive StoreCall where
  /-- The store does what it is asked for, if it can. -/
  | works
  /-- The store fails and changes nothing. -/
  | fails
  /-- The call breaks its worker off; the store changes nothing. -/
  | crashes
deriving DecidableEq, Repr

/-- How the call of a peer goes. -/
inductive PeerCall where
  | delivers
  | fails
  /-- The call breaks the worker off. -/
  | crashes
deriving DecidableEq, Repr

/-- What a participant of one generation does. -/
inductive Action where
  /-- A call queues up for room in the intake. -/
  | arrive (ticket : Nat)
  /-- The first waiting caller enters the intake, or learns that it is closed. -/
  | accept
  /-- A caller gives up waiting. -/
  | giveUp (ticket : Nat)
  /-- The storing worker takes the next entry. -/
  | receive
  /-- The storing worker closes the intake as it was ordered to. -/
  | closeIntake
  /-- The storing worker writes what it holds to the store. -/
  | store (call : StoreCall)
  /-- The storing worker offers what it wrote to the outbox. -/
  | forward
  /-- The storing worker ends. -/
  | retire
  /-- The condemned storing worker is cancelled. -/
  | cancel
  /-- The next reloaded record is offered to the outbox. -/
  | reload
  /-- The first who waits for room enters the outbox, or learns that it is closed. -/
  | enter
  /-- The sending worker takes a parcel. -/
  | take
  /-- The sending worker calls the next peer. -/
  | attempt
  /-- The call of a peer ends. -/
  | answer (call : PeerCall)
  /-- The sending worker announces that a peer took the message. -/
  | announce
  /-- The sending worker looks whether a peer that could not be reached is still known. -/
  | lookUp
  /-- The sending worker takes a peer off the message in the store. -/
  | forget (removal : StoreCall)
  /-- The sending worker puts the message back for a peer. -/
  | putBack
  /-- The sending worker of a stopped pipeline ends. -/
  | halt
  /-- One of the sleeping retries wakes up. -/
  | wake (position : Nat)
  /-- A shutdown begins. -/
  | close
  /-- A shutdown ends because the storing worker did. -/
  | finish
  /-- A shutdown ends because its time is over; the storing worker is condemned. -/
  | expire
  /-- The pipeline is dropped without a shutdown. -/
  | drop
deriving DecidableEq, Repr

/-- What an action does: to its generation, to the store, and what is seen, first thing first. -/
structure Change where
  generation : Generation
  db : Store.Database
  seen : List Observation

/-- The ticket of an entry that is a submission. -/
def Entry.ticket? : Entry → Option Nat
  | .deliver s => some s.ticket
  | .stop => none

/-- The peers a submission goes to: its targets, or every known peer. -/
def Submission.recipients (s : Submission) (d : Directory) :
    List Instance :=
  if s.targets.isEmpty then d.instances else s.targets

/-- The tour once it is done with a peer. -/
def Tour.next (t : Tour) : Option Tour :=
  if t.ahead.isEmpty then none else some { t with leg := .between }

namespace Generation

variable (g : Generation)

/-! ### Submitting -/

/-- A call that found the pipeline open queues up. -/
def arrive (db : Store.Database) (ticket : Nat) : Option Change :=
  match g.arriving.find? (·.ticket = ticket) with
  | some s =>
    some ⟨{ g with arriving := g.arriving.erase s, callers := g.callers ++ [.deliver s] }, db, []⟩
  | none => none

/-- The first caller enters the intake if there is room. -/
def accept (db : Store.Database) : Option Change :=
  match g.callers with
  | [] => none
  | entry :: rest =>
    let g := { g with callers := rest }
    if g.intake.isOpen then
      if g.intake.hasRoom then
        let seen := match entry with
          | .deliver s => [.accepted s]
          | .stop => []
        some ⟨{ g with intake := g.intake.push entry }, db, seen⟩
      else none
    else
      let seen := match entry with
        | .deliver s => [.refused s.ticket (.storingEnded s.message.id)]
        | .stop => []
      some ⟨g, db, seen⟩

/-- A caller gives up. -/
def giveUp (db : Store.Database) (ticket : Nat) : Option Change :=
  if g.arriving.any (·.ticket = ticket) ∨ g.callers.any (·.ticket? = some ticket) then
    some ⟨{ g with
      arriving := g.arriving.filter (·.ticket ≠ ticket)
      callers := g.callers.filter (·.ticket? ≠ some ticket) }, db, [.abandoned ticket]⟩
  else none

/-! ### The outbox -/

/-- Whether a parcel may enter the outbox at once: there is room, and nobody waits for it. -/
def canEnter : Bool :=
  g.outbox.hasRoom && g.waiting.isEmpty

/-- Whether who offers a parcel to the outbox has to wait for room. -/
def mustWait : Bool :=
  g.outbox.isOpen && !g.canEnter

/-- Offers a parcel to the outbox: it enters, or waits for room. A closed outbox loses it. -/
def offer (who : Waiter) (p : Parcel) : Generation :=
  if !g.outbox.isOpen then g
  else if g.canEnter then { g with outbox := g.outbox.push p }
  else { g with waiting := g.waiting ++ [(who, p)] }

/-- The records that are still to be offered to the outbox. A closed one ends the reload. -/
def toReload (records : List (Nat × Store.Record)) : List (Nat × Store.Record) :=
  if g.outbox.isOpen then records else []

/-- Lets a participant go on whose parcel entered the outbox or was lost. -/
def release : Waiter → Generation
  | .storing => { g with storing := if g.storing = .waiting then .ready else g.storing }
  | .reload => { g with reload := ⟨g.toReload g.reload.ahead, false⟩ }
  | .retry => g

/-- The first who waits enters the outbox if there is room; a closed outbox loses the parcel. -/
def enter (db : Store.Database) : Option Change :=
  match g.waiting with
  | [] => none
  | (who, p) :: rest =>
    let g := { g with waiting := rest }
    if !g.outbox.isOpen then some ⟨g.release who, db, []⟩
    else if g.outbox.hasRoom then
      some ⟨{ g with outbox := g.outbox.push p }.release who, db, []⟩
    else none

/-! ### Storing -/

/-- The storing worker runs once the records of the store are reloaded. -/
def isReloaded : Bool :=
  g.reload.ahead.isEmpty && !g.reload.waiting

/-- The storing worker takes the next entry of the intake. -/
def receive (db : Store.Database) : Option Change :=
  if g.storing = .ready ∧ g.isReloaded then
    match g.intake.entries with
    | [] => none
    | entry :: rest =>
      let storing := match entry with
        | .deliver s => .holding s
        | .stop => .stopping
      some ⟨{ g with storing, intake := { g.intake with entries := rest } }, db, []⟩
  else none

/-- The storing worker closes the intake. What is in it is still dealt with. -/
def closeIntake (db : Store.Database) : Option Change :=
  if g.storing = .stopping then
    some ⟨{ g with storing := .ready, intake := { g.intake with isOpen := false } }, db, []⟩
  else none

/-- Stores a submission. What cannot be stored is to be forwarded as well, to the peers it was
meant for. -/
def storeSubmission (db : Store.Database) (d : Directory) (s : Submission) (call : StoreCall) :
    Change :=
  match s.recipients d with
  | [] => ⟨{ g with storing := .ready }, db, [.processed s []]⟩
  | recipients =>
    let written (db : Store.Database) (targets : List Instance) (seen : List Observation) :
        Change :=
      ⟨{ g with storing := .written s targets }, db, seen ++ [.processed s targets]⟩
    let failed := Observation.write s.ticket s.message recipients false
    match call with
    | .crashes => ⟨{ g with storing := .crashed, intake := g.intake.abandon }, db, [failed]⟩
    | .fails => written db recipients [failed]
    | .works =>
      match Store.write db s.message recipients with
      | (.error _, db) => written db recipients [failed]
      | (.ok record, db) =>
        written db record.targets <|
          .write s.ticket s.message recipients true ::
            record.targets.map (.stored s.ticket s.message)

/-- The storing worker stores the submission that it holds. -/
def store (db : Store.Database) (d : Directory) (call : StoreCall) : Option Change :=
  match g.storing with
  | .holding s => some (g.storeSubmission db d s call)
  | _ => none

/-- The storing worker offers what it wrote to the outbox and waits if there is no room. -/
def forward (db : Store.Database) (d : Directory) : Option Change :=
  match g.storing with
  | .written s targets =>
    let p := Parcel.track d s.ticket s.message targets
    let storing := if g.mustWait then .waiting else .ready
    some ⟨{ g.offer .storing p with storing }, db, [.forwarded p]⟩
  | _ => none

/-- The storing worker ends when its intake is empty and nothing can enter it any more. -/
def retire (db : Store.Database) : Option Change :=
  if g.storing = .ready ∧ g.isReloaded ∧ g.intake.entries = [] ∧ (!g.intake.isOpen ∨ g.dropped) then
    some ⟨{ g with storing := .ended, intake := g.intake.abandon }, db, []⟩
  else none

/-- The storing worker is cancelled where it waits for an entry or for room. -/
def cancel (db : Store.Database) : Option Change :=
  if g.condemned ∧ (g.storing = .ready ∨ g.storing = .waiting) then
    some ⟨{ g with
      storing := .cancelled
      intake := g.intake.abandon
      waiting := g.waiting.filter (·.1 ≠ .storing) }, db, []⟩
  else none

/-! ### Reloading -/

/-- The next record of the store is offered to the outbox. -/
def reloadNext (db : Store.Database) (d : Directory) : Option Change :=
  match g.reload with
  | ⟨(ticket, record) :: rest, false⟩ =>
    let p := Parcel.track d ticket record.message record.targets
    some ⟨{ g.offer .reload p with reload := ⟨g.toReload rest, g.mustWait⟩ }, db, [.forwarded p]⟩
  | _ => none

/-! ### Sending -/

/-- The sending worker takes the next parcel. -/
def take (db : Store.Database) : Option Change :=
  match g.tour, g.outbox.entries with
  | none, p :: rest =>
    some ⟨{ g with
      outbox := { g.outbox with entries := rest }
      tour := some ⟨p, p.targets, .between⟩ }, db, []⟩
  | _, _ => none

/-- The sending worker calls the next peer of its parcel; without one its tour is over. -/
def attempt (db : Store.Database) : Option Change :=
  match g.tour with
  | some ⟨_, [], .between⟩ => some ⟨{ g with tour := none }, db, []⟩
  | some ⟨p, target :: ahead, .between⟩ =>
    some ⟨{ g with tour := some ⟨p, ahead, .calling target⟩ }, db,
      [.attempt p.ticket p.message target p.failures]⟩
  | _ => none

/-- The sending worker ends; what is in the outbox is lost. -/
def abortSending : Generation :=
  { g with tour := none, outbox := g.outbox.abandon }

/-- The call of a peer ends. -/
def answer (db : Store.Database) (call : PeerCall) : Option Change :=
  match g.tour with
  | some ⟨p, ahead, .calling target⟩ =>
    match call with
    | .delivers =>
      some ⟨{ g with tour := some ⟨p, ahead, .taken target⟩ }, db,
        [.answered p.ticket p.message target true]⟩
    | .fails =>
      some ⟨{ g with tour := some ⟨p, ahead, .failed target⟩ }, db,
        [.answered p.ticket p.message target false]⟩
    | .crashes => some ⟨g.abortSending, db, []⟩
  | _ => none

/-- A delivery is announced. -/
def announce (db : Store.Database) : Option Change :=
  match g.tour with
  | some ⟨p, ahead, .taken target⟩ =>
    some ⟨{ g with tour := some ⟨p, ahead, .leaving target⟩ }, db,
      [.sent p.ticket p.message target]⟩
  | _ => none

/-- A peer that was known when the parcel was put together and is not known any more is given up
when its call failed; every other call is to be made again. -/
def lookUp (db : Store.Database) (d : Directory) : Option Change :=
  match g.tour with
  | some ⟨p, ahead, .failed target⟩ =>
    if p.wasKnown target.uri && !d.contains target.uri then
      some ⟨{ g with tour := some ⟨p, ahead, .leaving target⟩ }, db,
        [.dropped p.ticket p.message target]⟩
    else some ⟨{ g with tour := some ⟨p, ahead, .retrying target⟩ }, db, []⟩
  | _ => none

/-- A peer is taken off the message in the store. -/
def forget (db : Store.Database) (removal : StoreCall) : Option Change :=
  match g.tour with
  | some ⟨p, ahead, .leaving target⟩ =>
    let rest : Generation := { g with tour := Tour.next ⟨p, ahead, .leaving target⟩ }
    match removal with
    | .works =>
      match Store.remove db p.message.id target.uri with
      | (.ok (), db) => some ⟨rest, db, [.remove p.ticket p.message target true]⟩
      | (.error _, db) => some ⟨rest, db, [.remove p.ticket p.message target false]⟩
    | .fails => some ⟨rest, db, [.remove p.ticket p.message target false]⟩
    | .crashes => some ⟨g.abortSending, db, [.remove p.ticket p.message target false]⟩
  | _ => none

/-- Puts a retry back, at once if there is no delay and it need not wait for room. Else it is left
to a task of its own, which offers it later. -/
def reinject (clock : Nat) (p : Parcel) : Generation :=
  if g.settings.retryDelay = 0 ∧ !g.mustWait then g.offer .retry p
  else { g with sleeping := g.sleeping ++ [(clock + g.settings.retryDelay, p)] }

/-- A message is put back for a peer whose call failed. -/
def putBack (db : Store.Database) (clock : Nat) : Option Change :=
  match g.tour with
  | some ⟨p, ahead, .retrying target⟩ =>
    let rest : Generation := { g with tour := Tour.next ⟨p, ahead, .retrying target⟩ }
    some ⟨rest.reinject clock (p.retry target), db, []⟩
  | _ => none

/-- The sending worker waits for a parcel or for an answer. -/
def isSendingIdle : Bool :=
  match g.tour with
  | none | some ⟨_, _, .calling _⟩ => true
  | _ => false

/-- The sending worker of a pipeline that was stopped or dropped ends where it waits. -/
def halt (db : Store.Database) : Option Change :=
  if g.stopped ∧ g.isSendingIdle then some ⟨g.abortSending, db, []⟩ else none

/-- The sleeping retry at a position is offered to the outbox once it is due. -/
def wake (db : Store.Database) (clock : Nat) (position : Nat) : Option Change :=
  match g.sleeping[position]? with
  | some (due, p) =>
    if due ≤ clock then
      some ⟨{ g with sleeping := g.sleeping.eraseIdx position }.offer .retry p, db, []⟩
    else none
  | none => none

/-! ### Stopping -/

/-- A shutdown begins: submissions are refused from now on, and the order to stop queues up behind
what was submitted. -/
def close (db : Store.Database) : Option Change :=
  if g.closed ∨ g.stopped then none
  else some ⟨{ g with closed := true, callers := g.callers ++ [.stop] }, db, [.closing]⟩

/-- The callers without the order to stop. -/
def submitters : List Entry :=
  g.callers.filter (· ≠ .stop)

/-- A shutdown ends after the storing worker did. The sending worker is told to stop. -/
def finish (db : Store.Database) : Option Change :=
  if g.closed ∧ !g.stopped ∧ (g.storing = .ended ∨ g.storing = .crashed) then
    let outcome := if g.storing = .ended then .drained else .cancelled
    some ⟨{ g with stopped := true, callers := g.submitters }, db, [.stopped outcome]⟩
  else none

/-- A shutdown ends because its time is over. Both workers are told to stop. -/
def expire (db : Store.Database) : Option Change :=
  if g.closed ∧ !g.stopped then
    some ⟨{ g with stopped := true, callers := g.submitters, condemned := true }, db,
      [.stopped .cancelled]⟩
  else none

/-- The pipeline is dropped: its callers are gone, the sending worker is told to stop, and the
storing worker goes on with what is in the intake. A pipeline that is shutting down is still in
use. -/
def drop (db : Store.Database) : Option Change :=
  if g.dropped ∨ (g.closed ∧ !g.stopped) then none
  else
    let tickets := g.arriving.map (·.ticket) ++ g.callers.filterMap Entry.ticket?
    let abandoned := tickets.map Observation.abandoned
    some ⟨{ g with dropped := true, stopped := true, arriving := [], callers := [] }, db, abandoned⟩

end Generation

/-- What an action does to its generation in a world. -/
def Generation.act (g : Generation) (w : World) : Action → Option Change
  | .arrive ticket => g.arrive w.db ticket
  | .accept => g.accept w.db
  | .giveUp ticket => g.giveUp w.db ticket
  | .receive => g.receive w.db
  | .closeIntake => g.closeIntake w.db
  | .store call => g.store w.db w.directory call
  | .forward => g.forward w.db w.directory
  | .retire => g.retire w.db
  | .cancel => g.cancel w.db
  | .reload => g.reloadNext w.db w.directory
  | .enter => g.enter w.db
  | .take => g.take w.db
  | .attempt => g.attempt w.db
  | .answer call => g.answer w.db call
  | .announce => g.announce w.db
  | .lookUp => g.lookUp w.db w.directory
  | .forget removal => g.forget w.db removal
  | .putBack => g.putBack w.db w.clock
  | .halt => g.halt w.db
  | .wake position => g.wake w.db w.clock position
  | .close => g.close w.db
  | .finish => g.finish w.db
  | .expire => g.expire w.db
  | .drop => g.drop w.db

/-- A move of the world. -/
inductive Move where
  /-- A new generation starts; `call` says how loading the store goes. -/
  | start (settings : Settings) (call : StoreCall)
  /-- A message is handed to a generation. -/
  | submit (generation : Nat) (m : Message) (targets : List Instance)
  | act (generation : Nat) (action : Action)
  /-- Time passes. -/
  | tick (millis : Nat)
  | register (i : Instance)
  | unregister (uri : String)

namespace World

/-- A generation that has to reload the given records. -/
def newGeneration (settings : Settings) (records : List (Nat × Store.Record)) : Generation where
  settings := settings
  closed := false
  stopped := false
  dropped := false
  arriving := []
  intake := .make settings.storeCapacity
  callers := []
  storing := .ready
  condemned := false
  outbox := .make settings.sendCapacity
  waiting := []
  tour := none
  sleeping := []
  reload := ⟨records, false⟩

/-- What a new generation has to reload, and the store after it was read. A store that cannot be
read counts as empty. -/
def load (w : World) : StoreCall → List Store.Record × Store.Database
  | .works =>
    match Store.load w.db with
    | (.ok records, db) => (records, db)
    | (.error _, db) => ([], db)
  | _ => ([], w.db)

/-- Gives tickets to records, from `first` on. -/
def numbered (first : Nat) (records : List Store.Record) : List (Nat × Store.Record) :=
  (records.zipIdx first).map Prod.swap

/-- Starts a generation with everything that the store holds. -/
def start (w : World) (settings : Settings) (call : StoreCall) : World :=
  let (records, db) := w.load call
  let records := numbered w.nextTicket records
  { w with
    db := db
    nextTicket := w.nextTicket + records.length
    generations := w.generations ++ [newGeneration settings records]
    trace := (records.map fun (ticket, record) =>
      (w.generations.length, Observation.reloaded ticket record)).reverse ++ w.trace }

/-- Hands a message to a generation: the call is refused, or goes on to queue up. -/
def submit (w : World) (n : Nat) (m : Message) (targets : List Instance) : Option World :=
  match w.generations[n]? with
  | none => none
  | some g =>
    if g.dropped then none
    else
      let s : Submission := ⟨w.nextTicket, m, targets⟩
      let w := { w with nextTicket := w.nextTicket + 1, trace := (n, .called s) :: w.trace }
      if g.closed then
        some { w with trace := (n, .refused s.ticket (.shutDown m.id)) :: w.trace }
      else
        some { w with generations := w.generations.set n { g with arriving := g.arriving ++ [s] } }

/-- Lets a participant of a generation act. -/
def act (w : World) (n : Nat) (a : Action) : Option World :=
  match w.generations[n]? with
  | none => none
  | some g =>
    (g.act w a).map fun change =>
      { w with
        db := change.db
        generations := w.generations.set n change.generation
        trace := (change.seen.map (n, ·)).reverse ++ w.trace }

/-- Makes a move, if it is possible. -/
def move (w : World) : Move → Option World
  | .start settings call => some (w.start settings call)
  | .submit n m targets => w.submit n m targets
  | .act n a => w.act n a
  | .tick millis => some { w with clock := w.clock + millis }
  | .register i => some { w with directory := w.directory.add i }
  | .unregister uri => some { w with directory := w.directory.remove uri }

/-- The worlds that can be reached by moves of which each is allowed where it is made. -/
inductive Reaches (allowed : World → Move → Prop) (initial : World) : World → Prop
  | start : Reaches allowed initial initial
  | step {w w' : World} (m : Move) : Reaches allowed initial w → allowed w m →
      w.move m = some w' → Reaches allowed initial w'

/-- The worlds that can be reached by any moves. -/
abbrev Reachable (initial w : World) : Prop :=
  Reaches (fun _ _ => True) initial w

end World

end PeerRelay.Delivery
