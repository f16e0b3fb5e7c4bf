import PeerRelay.Calendar.Lenient
import PeerRelay.Json.Decode
import PeerRelay.Json.Value
import PeerRelay.Message

/-!
# Messages as JSON

The document forms of instances and messages. Dates are written without loss and read in the
lenient form, payloads are lists of numbers. What is written is read back as it was.
-/

namespace PeerRelay

open Calendar Json

/-! ### Parts -/

/-- The document of a date. -/
def dateJson (t : Instant) : Value :=
  .text (Lenient.encode t)

/-- Reads a date. -/
def decodeDateJson : Decoder Instant
  | .text s => do
    match Lenient.decode (← ofFault s) with
    | .ok t => return t
    | .error fault => throw (.shape (.badText fault.message))
  | t => mismatch "an RFC 3339 formatted date and time string" t

/-- The document of metadata. -/
def Metadata.toJson (m : Metadata) : Value :=
  .object (m.entries.map fun (key, values) => (key, .ofTexts values))

/-- Reads metadata. -/
def Metadata.decodeJson : Decoder Metadata :=
  textMap (list text)

/-- The document of bytes. -/
def bytesJson (bytes : List UInt8) : Value :=
  .array (bytes.map fun b => .number b.toNat)

/-- Reads bytes. -/
def decodeBytesJson : Decoder (List UInt8) := fun t =>
  (List.map UInt8.ofNat) <$> list (natural 255 "u8") t

/-- Reads a set of texts. -/
def decodeTextSetJson : Decoder Text.TextSet := fun t =>
  Text.TextSet.ofList <$> list text t

/-! ### Instances -/

namespace Instance

/-- The document of an instance. -/
def toJson (i : Instance) : Value :=
  .object [("name", .text i.name), ("uri", .text i.uri)]

/-- The slots of an instance. -/
def record : Record Instance where
  title := "ReplicationInstance"
  blank := ⟨"", ""⟩
  slots := [
    .of "name" .refused text fun i name => { i with name },
    .of "uri" .refused text fun i uri => { i with uri }]

/-- Reads an instance. -/
def decodeJson : Decoder Instance := record.decode

end Instance

/-! ### Messages -/

namespace Message

/-- The fields of a message that stand before its sender, if it has one. -/
def leadingFields (m : Message) : List (String × Value) :=
  [("id", .text m.id), ("date", dateJson m.date), ("message_type", .text m.kind),
   ("source", .ofText? m.source)]

/-- The fields of a message that stand after its sender. -/
def trailingFields (m : Message) : List (String × Value) :=
  [("receivers", .ofTexts m.receivers.toList), ("custom_metadata", m.metadata.toJson),
   ("payload", bytesJson m.payload)]

/-- The document of a message. -/
def toJson (m : Message) : Value :=
  .object (m.leadingFields ++ m.trailingFields)

/-- A message without content, to be filled from a document. -/
def unfilled : Message :=
  blank ⟨"", Instant.epoch⟩ ""

variable {σ : Type}

/-- The slots before the sender. `edit` changes the message inside what is filled. -/
def leadingSlots (edit : (Message → Message) → σ → σ) : List (Slot σ) := [
  .of "id" .refused text fun s id => edit (fun m => { m with id }) s,
  .of "date" .refused decodeDateJson fun s date => edit (fun m => { m with date }) s,
  .of "message_type" .refused text fun s kind => edit (fun m => { m with kind }) s,
  .of "source" .emptyInObject text? fun s source => edit (fun m => { m with source }) s]

/-- The slots after the sender. -/
def trailingSlots (edit : (Message → Message) → σ → σ) : List (Slot σ) := [
  .of "receivers" .refused decodeTextSetJson
    fun s receivers => edit (fun m => { m with receivers }) s,
  .of "custom_metadata" .refused Metadata.decodeJson
    fun s metadata => edit (fun m => { m with metadata }) s,
  .of "payload" .refused decodeBytesJson fun s payload => edit (fun m => { m with payload }) s]

/-- The slots of a message. -/
def record : Record Message where
  title := "SenderMessage"
  blank := unfilled
  slots := leadingSlots (fun f => f) ++ trailingSlots (fun f => f)

/-- Reads a message. -/
def decodeJson : Decoder Message := record.decode

end Message

namespace Received

/-- The document of a received message. -/
def toJson (r : Received) : Value :=
  .object (r.message.leadingFields ++ ("sender", .text r.sender) :: r.message.trailingFields)

/-- Changes the message inside a received message. -/
def editMessage (f : Message → Message) (r : Received) : Received :=
  { r with message := f r.message }

/-- The slots of a received message. -/
def record : Record Received where
  title := "ReceiverMessage"
  blank := ⟨Message.unfilled, ""⟩
  slots := Message.leadingSlots editMessage ++
    .of "sender" .refused text (fun r sender => { r with sender }) ::
    Message.trailingSlots editMessage

/-- Reads a received message. -/
def decodeJson : Decoder Received := record.decode

end Received

end PeerRelay
