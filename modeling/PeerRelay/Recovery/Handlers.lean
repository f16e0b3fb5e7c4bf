import PeerRelay.Dispatch
import PeerRelay.Recovery.Window

/-!
# Recovery handlers

A handler sends again what one kind of data owes to a window. Handlers run in ascending order of
priority; among equal priorities the one that came first runs first. The first failure ends a
recovery: later handlers do not run, and the requester is not told that the recovery is complete.

The registry keeps handlers sorted by insertion, at a place that is found by halving. A registration
that is interrupted while the priority is asked for leaves the registry poisoned, and it stays so.
-/

namespace PeerRelay.Recovery

/-- What sends again the messages of one kind of data. -/
structure Handler (σ : Type) where
  name : String
  priority : Int
  run : Window → Received → Task σ Unit

variable {σ : Type}

/-- Handlers in ascending order of priority, equal ones in their given order. -/
def inOrder (handlers : List (Handler σ)) : List (Handler σ) :=
  handlers.mergeSort fun a b => a.priority ≤ b.priority

/-- How many items at the front of a list satisfy a condition, found by halving the list. The items
that satisfy it must all stand in front of those that do not. -/
def partitionPoint {α : Type} (p : α → Bool) (l : List α) : Nat :=
  match split : l.drop (l.length / 2) with
  | [] => 0
  | middle :: rest =>
    if p middle then l.length / 2 + 1 + partitionPoint p rest
    else partitionPoint p (l.take (l.length / 2))
termination_by l.length
decreasing_by
  all_goals
    have hlength := congrArg List.length split
    simp only [List.length_drop, List.length_cons, List.length_take] at *
    omega

/-- Inserts a handler after every handler of lower or equal priority of a sorted list. -/
def insertByPriority (h : Handler σ) (handlers : List (Handler σ)) : List (Handler σ) :=
  handlers.insertIdx (partitionPoint (·.priority ≤ h.priority) handlers) h

/-- The registered handlers in order of priority, unless a registration was interrupted. -/
inductive Registry (σ : Type) where
  | intact (sorted : List (Handler σ))
  | poisoned

namespace Registry

/-- A registry without handlers. -/
def empty : Registry σ := .intact []

/-- The handlers in order of priority. -/
def handlers : Registry σ → Except Failure (List (Handler σ))
  | .intact sorted => .ok sorted
  | .poisoned => .error (.configuration .poisonedHandlers)

/-- The number of handlers; a poisoned registry counts none. -/
def size : Registry σ → Nat
  | .intact sorted => sorted.length
  | .poisoned => 0

/-- What came of a registration. -/
inductive Registration where
  | done
  | refused (failure : Failure)
  /-- Asking the handler for its priority broke the registration off. -/
  | interrupted

/-- Registers a handler. `interrupted` says that the handler breaks off when it is asked for its
priority; a poisoned registry does not ask. -/
def register (registry : Registry σ) (h : Handler σ) (interrupted : Bool) :
    Registration × Registry σ :=
  match registry with
  | .poisoned => (.refused (.configuration .poisonedHandlers), .poisoned)
  | .intact sorted =>
    if interrupted then (.interrupted, .poisoned)
    else (.done, .intact (insertByPriority h sorted))

end Registry

/-- Runs handlers one after the other until one fails. -/
def runAll (window : Window) (request : Received) : List (Handler σ) → Task σ Unit
  | [] => return
  | h :: rest => do
    h.run window request
    runAll window request rest

/-- Serves a recovery request: runs the provided handlers in order for the window of the request,
then hands the completion notice to `send`. -/
def serve (provided : Except Failure (List (Handler σ))) (send : Message → Task σ Unit)
    (stamp : Message.Stamp) : Receiver σ := fun request => do
  let handlers ← liftExcept provided
  let window ← liftExcept (Window.read request)
  runAll window request (inOrder handlers)
  send (window.finished stamp request)
where
  /-- A result that needs no state. -/
  liftExcept {α : Type} (result : Except Failure α) : Task σ α :=
    ExceptT.mk (pure result)

end PeerRelay.Recovery
