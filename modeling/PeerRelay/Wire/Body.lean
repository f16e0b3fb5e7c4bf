import PeerRelay.Message.Json

/-!
# Wire bodies

A message on its way from one instance to another. The body names the sender of the hop, dates
have millisecond precision and payloads are base64. A body without a source is attributed to its
sender when it is received.
-/

namespace PeerRelay.Wire

open Calendar Json

/-- The body of a request that carries a message. -/
structure Body where
  id : String
  date : String
  kind : String
  source : Option String
  sender : String
  receivers : List String
  metadata : Metadata
  payload : String
deriving DecidableEq

namespace Body

/-- The body of a message that `sender` delivers. -/
def ofMessage (m : Message) (sender : String) : Body where
  id := m.id
  date := DateText.encode m.date
  kind := m.kind
  source := m.source
  sender := sender
  receivers := m.receivers.toList
  metadata := m.metadata
  payload := Text.Base64.encode m.payload

/-- The message that a body carries. -/
def receive (b : Body) : Except Failure Received :=
  match DateText.decode b.date with
  | .error fault => .error (.invalidMessage (.badDate b.date b.id fault))
  | .ok date =>
    match Text.Base64.decode b.payload with
    | .error fault => .error (.invalidMessage (.badPayload b.id fault))
    | .ok payload =>
      .ok {
        message := {
          id := b.id
          date := date
          kind := b.kind
          source := some (b.source.getD b.sender)
          receivers := Text.TextSet.ofList b.receivers
          metadata := b.metadata
          payload := payload }
        sender := b.sender }

/-- The document of a body; an absent source has no field. -/
def toJson (b : Body) : Value :=
  .object <|
    [("id", .text b.id), ("date", .text b.date), ("type", .text b.kind)] ++
    (b.source.toList.map fun s => ("source", .text s)) ++
    [("sender", .text b.sender), ("receivers", .ofTexts b.receivers),
     ("customMetadata", b.metadata.toJson), ("payload", .text b.payload)]

/-- The slots of a body. -/
def record : Record Body where
  title := "WireMessage"
  blank := ⟨"", "", "", none, "", [], ∅, ""⟩
  slots := [
    .of "id" .refused text fun b id => { b with id },
    .of "date" .refused text fun b date => { b with date },
    .of "type" .refused text fun b kind => { b with kind },
    .of "source" .defaulted text? fun b source => { b with source },
    .of "sender" .refused text fun b sender => { b with sender },
    .of "receivers" .defaulted (list text) fun b receivers => { b with receivers },
    .of "customMetadata" .defaulted Metadata.decodeJson fun b metadata => { b with metadata },
    .of "payload" .defaulted text fun b payload => { b with payload }]

/-- Reads a body. -/
def decodeJson : Decoder Body := record.decode

end Body

end PeerRelay.Wire
