import PeerRelay.Json.Value
import PeerRelay.Message

/-!
# Events

Every change in the life of a message is an event. An event is flattened into named fields for
an audit trail: the built-in names, and one field for each metadata key behind a marker that no
built-in name starts with, so that no key can hide a built-in field.

A journal records events in the order in which they happened.
-/

namespace PeerRelay

open Calendar

/-- What happened to a message. -/
inductive Status where
  /-- It was stored and waits to be sent. -/
  | stored
  /-- It was delivered to an instance. -/
  | sent
  /-- It came in and waits to be handled. -/
  | received
  /-- It came in and was handled. -/
  | handled
deriving DecidableEq, Repr

/-- The name of a status. -/
def Status.name : Status → String
  | .stored => "stored"
  | .sent => "sent"
  | .received => "received"
  | .handled => "handled"

/-- One change in the life of one message. -/
structure Event where
  status : Status
  id : String
  date : Instant
  source : Option String
  /-- The instance that sent the message last, if it came in. -/
  sender : Option String
  receivers : Text.TextSet
  /-- The peer that the change concerns, if it concerns one. -/
  target : Option String
  kind : String
  metadata : Metadata
deriving DecidableEq

namespace Event

/-- The event of a message that goes out. -/
def outbound (status : Status) (m : Message) (target : Option String) : Event where
  status := status
  id := m.id
  date := m.date
  source := m.source
  sender := none
  receivers := m.receivers
  target := target
  kind := m.kind
  metadata := m.metadata

/-- The event of a message that came in. -/
def inbound (status : Status) (r : Received) : Event :=
  { outbound status r.message none with sender := some r.sender }

/-- The value of a field: one text, or a list of texts. -/
inductive FieldValue where
  | one (text : String)
  | many (texts : List String)
deriving DecidableEq

/-- The field of a metadata key. -/
def metadataField (key : String) : String :=
  "custom_" ++ key

/-- The audit type of a message type. -/
def auditKind (kind : String) : String :=
  "replication_message_" ++ kind

/-- The fields that do not depend on metadata; an absent value has no field. -/
def builtinFields (e : Event) : List (String × FieldValue) :=
  [("application", .one "replication.message"),
   ("event_type", .one (auditKind e.kind)),
   ("status", .one e.status.name),
   ("id", .one e.id),
   ("date", .one (e.date.render .fewest .numeric)),
   ("type", .one e.kind)] ++
  (e.source.toList.map fun s => ("source", .one s)) ++
  (e.sender.toList.map fun s => ("sender", .one s)) ++
  (if e.receivers.isEmpty then [] else [("receivers", .many e.receivers.toList)]) ++
  (e.target.toList.map fun s => ("target", .one s))

/-- The event as named fields. -/
def fields (e : Event) : Text.TextMap FieldValue :=
  Text.TextMap.ofList <|
    e.builtinFields ++ e.metadata.entries.map fun (key, values) => (metadataField key, .many values)

/-- The document of a field value. -/
def FieldValue.toJson : FieldValue → Json.Value
  | .one text => .text text
  | .many texts => .ofTexts texts

/-- The fields as one document. -/
def fieldsJson (e : Event) : Json.Value :=
  .object (e.fields.entries.map fun (name, value) => (name, value.toJson))

/-- The entries of the log record of an event; an absent value is logged as the empty text. -/
def logRecord (e : Event) : List (String × String) :=
  [("message", "Replication message event"),
   ("status", e.status.name),
   ("message_id", e.id),
   ("message_type", e.kind),
   ("target", e.target.getD ""),
   ("sender", e.sender.getD ""),
   ("fields", e.fieldsJson.compact)]

end Event

/-- The events that happened, in order. -/
structure Journal where
  events : List Event := []

namespace Journal

/-- Records an event. -/
def record (j : Journal) (e : Event) : Journal :=
  ⟨j.events ++ [e]⟩

/-- The events of one status. -/
def ofStatus (j : Journal) (status : Status) : List Event :=
  j.events.filter (·.status = status)

/-- The number of recorded events. -/
def size (j : Journal) : Nat :=
  j.events.length

end Journal

end PeerRelay
