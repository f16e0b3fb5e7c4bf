import PeerRelay.Message

/-!
# Recovery windows

A peer that may have missed messages asks for those of a window of time. The window travels in
the metadata of the request; the answer repeats it and names the request and the requester.
-/

namespace PeerRelay.Recovery

open Calendar

/-- The type of a recovery request. -/
def requestKind : String := "instance_recover_request"

/-- The type of the notice that a recovery is complete. -/
def finishedKind : String := "instance_recover_finished"

/-- The metadata key of the lower bound. -/
def dateMinKey : String := "instance-recover-request.date-min"

/-- The metadata key of the upper bound. -/
def dateMaxKey : String := "instance-recover-request.date-max"

/-- The metadata key of the request that a notice answers. -/
def requestIdKey : String := "instance-recover-finished.request-id"

/-- The metadata key of the instance that asked. -/
def requestSourceKey : String := "instance-recover-finished.request-source"

/-- A window of time, both bounds included. -/
structure Window where
  dateMin : Instant
  dateMax : Instant
deriving DecidableEq

namespace Window

/-- Whether an instant lies in the window. -/
def contains (w : Window) (t : Instant) : Bool :=
  w.dateMin ≤ t ∧ t ≤ w.dateMax

/-- Writes the window into the metadata of a message. -/
def inscribe (w : Window) (m : Message) : Message :=
  (m.withMetadataDate dateMinKey w.dateMin).withMetadataDate dateMaxKey w.dateMax

/-- Reads the window of a request or a notice. -/
def read (r : Received) : Except Failure Window := do
  let dateMin ← r.metadataDate dateMinKey
  let dateMax ← r.metadataDate dateMaxKey
  return ⟨dateMin, dateMax⟩

/-- The request for the messages of the window; without receivers it asks everyone. -/
def request (w : Window) (stamp : Message.Stamp) (receivers : List String) : Message :=
  w.inscribe ((Message.blank stamp requestKind).addressedTo receivers)

/-- The notice that answers a request, addressed to the instance that asked. -/
def finished (w : Window) (stamp : Message.Stamp) (request : Received) : Message :=
  ((w.inscribe ((Message.blank stamp finishedKind).addressedTo [request.origin])).withMetadata
    requestIdKey request.message.id).withMetadata requestSourceKey request.origin

end Window

end PeerRelay.Recovery
