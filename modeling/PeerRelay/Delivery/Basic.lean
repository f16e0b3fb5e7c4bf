import PeerRelay.Event
import PeerRelay.Store.Basic

/-!
# The delivery pipeline: state

A submitted message passes two bounded queues. The *storing worker* takes it from the intake,
writes it to the store and forwards it to the outbox; the *sending worker* takes it from the
outbox and calls each of its peers in turn. A failed call goes back to the end of the outbox, at
once or after a delay, for that peer alone; the sending worker never waits for room, so a retry
that finds the outbox full is left to a task of its own, which queues up behind everyone else who
waits for room.

A *parcel* is what travels in the outbox: a message, the peers it has yet to reach, and which of
them were in the directory when it was put together. Every submission and every reloaded record
has a ticket, which tells them apart even if their messages share an id.

A submission is a call. It looks whether the pipeline is open, then it queues up for room in the
intake, and between the two a shutdown may begin.

The pipeline can be stopped and started again over the same store. Each start makes a *generation*
of workers. What an earlier generation left behind may still be busy while the next one runs.

Everything that happens is observed in a trace, latest first.
-/

namespace PeerRelay.Delivery

/-- The limits of a pipeline. A capacity of 0 counts as 1. -/
structure Settings where
  storeCapacity : Nat := 1000
  sendCapacity : Nat := 1000
  /-- How long a shutdown waits for the storing worker, in milliseconds. -/
  shutdownTimeout : Nat := 60000
  /-- How long a failed call waits before it is tried again, in milliseconds. -/
  retryDelay : Nat := 1000
deriving DecidableEq, Repr

/-- A message that was handed to the pipeline; without targets it goes to every known peer. -/
structure Submission where
  ticket : Nat
  message : Message
  targets : List Instance
deriving DecidableEq

/-- What stands in the intake. -/
inductive Entry where
  | deliver (s : Submission)
  /-- Everything before it is to be stored, nothing after it. -/
  | stop
deriving DecidableEq

/-- A message and the peers it has yet to reach. -/
structure Parcel where
  ticket : Nat
  message : Message
  targets : List Instance
  /-- The URIs of the targets that were known when the parcel was put together. -/
  tracked : List String
  /-- How many calls for it have failed before. -/
  failures : Nat
deriving DecidableEq

namespace Parcel

/-- A parcel for peers as the directory knows them now. -/
def track (d : Directory) (ticket : Nat) (m : Message) (targets : List Instance) : Parcel :=
  ⟨ticket, m, targets, (targets.filter (d.contains ·.uri)).map (·.uri), 0⟩

/-- Whether the peer was known when the parcel was put together. -/
def wasKnown (p : Parcel) (uri : String) : Bool :=
  p.tracked.contains uri

/-- The parcel for the one peer whose call failed. -/
def retry (p : Parcel) (target : Instance) : Parcel :=
  { p with
    targets := [target]
    tracked := if p.wasKnown target.uri then [target.uri] else []
    failures := p.failures + 1 }

end Parcel

/-- A queue with room for a limited number of entries. A closed queue takes no more. -/
structure Queue (α : Type) where
  capacity : Nat
  entries : List α
  isOpen : Bool
deriving DecidableEq

namespace Queue

variable {α : Type}

/-- An open queue without entries. -/
def make (capacity : Nat) : Queue α := ⟨max 1 capacity, [], true⟩

/-- Whether there is room for one more entry. -/
def hasRoom (q : Queue α) : Bool :=
  q.entries.length < q.capacity

/-- Adds an entry at the end. -/
def push (q : Queue α) (a : α) : Queue α :=
  { q with entries := q.entries ++ [a] }

/-- The queue as its only reader leaves it behind. -/
def abandon (q : Queue α) : Queue α :=
  { q with entries := [], isOpen := false }

end Queue

/-- Who waits for room in the outbox. -/
inductive Waiter where
  | storing
  | reload
  | retry
deriving DecidableEq, Repr

/-- The state of the storing worker. -/
inductive Storing where
  /-- It takes the next entry. -/
  | ready
  /-- It took a submission and has yet to write it to the store. -/
  | holding (s : Submission)
  /-- It wrote a submission and has yet to forward it to the given peers. -/
  | written (s : Submission) (targets : List Instance)
  /-- It waits for room in the outbox. -/
  | waiting
  /-- It took the order to stop and has yet to close the intake. -/
  | stopping
  /-- It has nothing more to do. -/
  | ended
  /-- A call of the store broke it off. -/
  | crashed
  /-- It was cancelled. -/
  | cancelled
deriving DecidableEq

/-- How far the sending worker is with one of the peers of a parcel. -/
inductive Leg where
  /-- The next peer is yet to be called, if there is one. -/
  | between
  /-- The answer of the peer is awaited. -/
  | calling (target : Instance)
  /-- The peer took the message, which is yet to be announced. -/
  | taken (target : Instance)
  /-- The call failed, and it is yet to be looked up whether the peer is still known. -/
  | failed (target : Instance)
  /-- The peer is yet to be taken off the message in the store. -/
  | leaving (target : Instance)
  /-- The message is yet to be put back for the peer. -/
  | retrying (target : Instance)
deriving DecidableEq

/-- What the sending worker is busy with. -/
structure Tour where
  parcel : Parcel
  /-- The peers that were not called yet. -/
  ahead : List Instance
  leg : Leg
deriving DecidableEq

/-- The peer whose answer is awaited. -/
def Leg.awaited? : Leg → Option Instance
  | .calling target => some target
  | _ => none

/-- The records of the store that a new generation has yet to put into the outbox. -/
structure Reload where
  /-- Each record that was not offered yet, with its ticket. -/
  ahead : List (Nat × Store.Record)
  /-- The record that was offered last waits for room. -/
  waiting : Bool
deriving DecidableEq

/-- The workers of one start of the pipeline, and what passes between them. -/
structure Generation where
  settings : Settings
  /-- A shutdown has begun: submissions are refused. -/
  closed : Bool
  /-- The workers were told to stop, by a shutdown or because the pipeline was dropped. The sending
  worker is to end where it waits next. -/
  stopped : Bool
  /-- Nobody can submit to it any more. -/
  dropped : Bool
  /-- Calls that found the pipeline open and did not queue up yet. -/
  arriving : List Submission
  intake : Queue Entry
  /-- Who waits for room in the intake, in the order of arrival. -/
  callers : List Entry
  storing : Storing
  /-- The storing worker is to be cancelled where it waits next. -/
  condemned : Bool
  outbox : Queue Parcel
  /-- Who waits for room in the outbox, in the order of arrival. -/
  waiting : List (Waiter × Parcel)
  tour : Option Tour
  /-- Retries that are not due yet, with the time at which they are. -/
  sleeping : List (Nat × Parcel)
  reload : Reload
deriving DecidableEq

/-- How a shutdown ended. -/
inductive Stopped where
  /-- Everything that was accepted was stored. -/
  | drained
  /-- The storing worker did not end in time, or not by itself. -/
  | cancelled
  | alreadyStopped
deriving DecidableEq, Repr

/-- What can be seen of the pipeline. -/
inductive Observation where
  /-- A message was handed in. -/
  | called (s : Submission)
  /-- A submission was accepted. -/
  | accepted (s : Submission)
  | refused (ticket : Nat) (fault : QueueFault)
  /-- A submitter gave up waiting. -/
  | abandoned (ticket : Nat)
  /-- A record of the store was loaded. -/
  | reloaded (ticket : Nat) (record : Store.Record)
  /-- The store was asked to write a message; `done` says whether it did. -/
  | write (ticket : Nat) (m : Message) (targets : List Instance) (done : Bool)
  /-- A message was stored for a peer. -/
  | stored (ticket : Nat) (m : Message) (target : Instance)
  /-- The storing worker dealt with a submission and will forward it to the given peers; there are
  none if nobody was known. -/
  | processed (s : Submission) (targets : List Instance)
  /-- A parcel was offered to the outbox for the first time. -/
  | forwarded (p : Parcel)
  /-- A peer was called. -/
  | attempt (ticket : Nat) (m : Message) (target : Instance) (failures : Nat)
  /-- The call of a peer ended; `taken` says whether the peer took the message. -/
  | answered (ticket : Nat) (m : Message) (target : Instance) (taken : Bool)
  /-- The delivery of a message to a peer was announced. -/
  | sent (ticket : Nat) (m : Message) (target : Instance)
  /-- A peer that is no longer known was given up. -/
  | dropped (ticket : Nat) (m : Message) (target : Instance)
  /-- The store was asked to take a peer off a message; `done` says whether it did. -/
  | remove (ticket : Nat) (m : Message) (target : Instance) (done : Bool)
  /-- A shutdown began. -/
  | closing
  /-- A shutdown ended. -/
  | stopped (outcome : Stopped)
deriving DecidableEq

/-- The event that an observation stands for, if it stands for one. -/
def Observation.event? : Observation → Option Event
  | .stored _ m target => some (.outbound .stored m (some target.uri))
  | .sent _ m target => some (.outbound .sent m (some target.uri))
  | _ => none

/-- The pipeline with all its generations, oldest first, and what it works with. -/
structure World where
  db : Store.Database
  directory : Directory
  /-- The time in milliseconds. -/
  clock : Nat
  nextTicket : Nat
  generations : List Generation
  /-- What was seen of which generation, latest first. -/
  trace : List (Nat × Observation)
deriving DecidableEq

/-- A world in which no pipeline was started yet. -/
def World.initial (directory : Directory) (db : Store.Database) : World :=
  ⟨db, directory, 0, 0, [], []⟩

/-- The events that were emitted, in order. -/
def World.events (w : World) : List Event :=
  w.trace.reverse.filterMap (·.2.event?)

end PeerRelay.Delivery
