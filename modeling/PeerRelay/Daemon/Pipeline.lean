import PeerRelay.Delivery.Schedule
import PeerRelay.Recovery.Handlers
import PeerRelay.Recovery.Request
import PeerRelay.Settings.Config

/-!
# The pipeline of a daemon

How the parts are wired for a configured instance: the pipeline delivers to the configured peers
from a database, and an inbound recovery request runs the registered handlers and is answered
through the pipeline.
-/

namespace PeerRelay.Daemon

open Settings Delivery

/-- The limits of the pipeline. -/
def deliverySettings (l : Limits) : Delivery.Settings where
  storeCapacity := l.storeCapacity
  sendCapacity := l.sendCapacity
  shutdownTimeout := 1000 * l.shutdownSeconds
  retryDelay := l.retryMillis

/-- The started pipeline of a configured instance. -/
def startPipeline (config : Config) (script : Script) (db : Store.Database) : Stage :=
  let stage := Stage.initial ⟨config.peers⟩ db
  ({ stage with script } : Stage).start (deliverySettings config.limits)

/-- A running pipeline beside the state of the recovery handlers. -/
structure Running (σ : Type) where
  stage : Stage
  handlers : σ

variable {σ : Type}

/-- Hands a message to the pipeline, for every configured peer. The caller waits until the message
is accepted or refused; the last fault stands for a call that would never end. -/
def enqueue (m : Message) : Task (Running σ) Unit := do
  let s ← get
  match s.stage.submit m [] none with
  | some (outcome, stage) =>
    set { s with stage := stage.settle }
    match outcome with
    | .accepted => return
    | .refused fault => throw (.queueing fault)
    | .abandoned => throw (.queueing (.reported s!"No room for message [{m.id}]"))
  | none => throw (.queueing (.shutDown m.id))

/-- The receivers of a daemon: recovery requests are served from the registry. -/
def receivers (registry : Recovery.Registry (Running σ)) (stamp : Message.Stamp) :
    Dispatcher (Running σ) :=
  Dispatcher.empty.register Recovery.requestKind
    (Recovery.serve registry.handlers enqueue stamp)

/-- What came of a recovery request that was handed to the pipeline. -/
inductive Requested where
  /-- It is stored for the peers. -/
  | queued
  | refused (fault : QueueFault)
  /-- It would never find room, or the pipeline did not stop in order, so that it may not be
  stored. -/
  | uncertain (stopped : Stopped)
deriving DecidableEq, Repr

/-- Hands a recovery request for `targets` to the pipeline and stops it. -/
def requestRecovery (stage : Stage) (window : Recovery.Window) (stamp : Message.Stamp)
    (targets : List Instance) : Requested × Stage :=
  let request := window.request stamp (targets.map (·.uri))
  match stage.submit request targets none with
  | some (.accepted, stage) =>
    match stage.shutdown with
    | some (.drained, stage) => (.queued, stage)
    | some (stopped, stage) => (.uncertain stopped, stage)
    | none => (.uncertain .alreadyStopped, stage)
  | some (.refused fault, stage) => (.refused fault, stage)
  | some (.abandoned, stage) => (.uncertain .cancelled, stage)
  | none => (.refused (.shutDown stamp.id), stage)

end PeerRelay.Daemon
