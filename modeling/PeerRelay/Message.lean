import PeerRelay.Calendar.Rfc3339
import PeerRelay.Failure
import PeerRelay.Instance
import PeerRelay.Text.Ordered

/-!
# Messages

A message as its originator builds it, and the same message as a peer receives it.

A received message is a message together with the instance that performed the last hop. The
source of a received message is never lost on the way: a message without one is attributed to
its first sender, and a relayed message keeps identity, date and source of what was received.
-/

namespace PeerRelay

open Calendar

/-- Values under keys that the application chooses. A key may have no value at all. -/
abbrev Metadata := Text.TextMap (List String)

/-- A message to be replicated. -/
structure Message where
  id : String
  date : Instant
  /-- The type by which receivers route the message. -/
  kind : String
  /-- The instance the message first came from, if it was relayed. -/
  source : Option String
  /-- The instances that should handle the message; empty stands for all. -/
  receivers : Text.TextSet
  metadata : Metadata
  payload : List UInt8
deriving DecidableEq, Inhabited

namespace Message

/-- What is new about a message of our own: a fresh id and the present time. -/
structure Stamp where
  id : String
  date : Instant

/-- A message of the given type without content. -/
def blank (stamp : Stamp) (kind : String) : Message where
  id := stamp.id
  date := stamp.date
  kind := kind
  source := none
  receivers := ∅
  metadata := ∅
  payload := []

/-- Addresses the message to the instances of a list. -/
def addressedTo (m : Message) (receivers : List String) : Message :=
  { m with receivers := Text.TextSet.ofList receivers }

/-- Appends a value to a metadata key. -/
def withMetadata (m : Message) (key value : String) : Message :=
  { m with metadata := m.metadata.alter key fun values => values.getD [] ++ [value] }

/-- Appends a date to a metadata key. -/
def withMetadataDate (m : Message) (key : String) (date : Instant) : Message :=
  m.withMetadata key (DateText.encode date)

end Message

/-- A message as a peer receives it. -/
structure Received where
  message : Message
  /-- The instance that sent the message last. -/
  sender : String
deriving DecidableEq, Inhabited

/-- The view that a peer gets of the message when `sender` delivers it. -/
def Message.receivedFrom (m : Message) (sender : String) : Received :=
  ⟨{ m with source := some (m.source.getD sender) }, sender⟩

namespace Received

/-- The instance that the message first came from. -/
def origin (r : Received) : String :=
  r.message.source.getD r.sender

/-- Gives a new message the identity, date and source of the received one. -/
def relay (r : Received) (m : Message) : Message :=
  { m with id := r.message.id, date := r.message.date, source := r.message.source }

/-- The first value of a metadata key. -/
def metadata? (r : Received) (key : String) : Option String :=
  (r.message.metadata.find? key).bind List.head?

/-- The first value of a metadata key that must be there. -/
def metadataValue (r : Received) (key : String) : Except Failure String :=
  match r.metadata? key with
  | some value => .ok value
  | none => .error (.invalidMessage (.missingMetadata key r.message.id))

/-- Reads a metadata value as a date. -/
def readDate (r : Received) (key raw : String) : Except Failure Instant :=
  match DateText.decode raw with
  | .ok date => .ok date
  | .error fault => .error (.invalidMessage (.badMetadataDate raw key r.message.id fault))

/-- The first value of a metadata key as a date, if the key has a value. -/
def metadataDate? (r : Received) (key : String) : Except Failure (Option Instant) :=
  match r.metadata? key with
  | some raw => some <$> r.readDate key raw
  | none => .ok none

/-- The first value of a metadata key that must be there, as a date. -/
def metadataDate (r : Received) (key : String) : Except Failure Instant := do
  r.readDate key (← r.metadataValue key)

/-- Whether the instance should handle the message. -/
def isReceiver (r : Received) (uri : String) : Bool :=
  r.message.receivers.isEmpty || r.message.receivers.contains uri

end Received

end PeerRelay
