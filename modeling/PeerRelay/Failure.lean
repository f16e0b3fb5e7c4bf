import PeerRelay.Calendar.Reading
import PeerRelay.Text.Base64

/-!
# Failures

What can go wrong with a message, as causes. Collaborators outside the library (handlers,
receivers, a registry) report failures of their own in words; every other cause carries what
its wording needs. `Failure.message` is the only place where wordings are made.
-/

namespace PeerRelay

/-- Why one attempt to deliver a message to a peer failed. Every cause counts as passing. -/
inductive DeliveryFault where
  /-- No response came back. -/
  | noResponse (detail : String)
  /-- The peer answered with a status that is no success. -/
  | rejected (status : Nat) (body : String)
  /-- The message has no wire form. -/
  | unencodable (detail : String)
deriving DecidableEq, Repr

/-- The wording of a delivery fault. -/
def DeliveryFault.message : DeliveryFault → String
  | .noResponse detail => s!"HTTP error: {detail}"
  | .rejected status body => s!"Rejected by peer with status {status}: {body}"
  | .unencodable detail => s!"Encoding error: {detail}"

/-- Why a message was not accepted for delivery. -/
inductive QueueFault where
  /-- The pipeline no longer accepts messages. -/
  | shutDown (id : String)
  /-- The stage that stores accepted messages has ended. -/
  | storingEnded (id : String)
  | reported (detail : String)
deriving DecidableEq, Repr

/-- The wording of a queue fault. -/
def QueueFault.message : QueueFault → String
  | .shutDown id => s!"Failed to queue message [{id}]: the sender is shut down"
  | .storingEnded id => s!"Failed to queue message [{id}]: the persist stage is stopped"
  | .reported detail => detail

/-- Why an inbound message cannot be handled. -/
inductive MessageFault where
  | missingMetadata (key id : String)
  | badMetadataDate (raw key id : String) (fault : Calendar.ReadingFault)
  | badDate (raw id : String) (fault : Calendar.ReadingFault)
  | badPayload (id : String) (fault : Text.Base64.Fault)
  /-- Nobody handles messages of the type. -/
  | unsupportedKind (kind : String)
  | reported (detail : String)
deriving DecidableEq, Repr

/-- The wording of a message fault. -/
def MessageFault.message : MessageFault → String
  | .missingMetadata key id => s!"Missing mandatory metadata [{key}] in message [{id}]"
  | .badMetadataDate raw key id fault =>
    s!"Invalid date [{raw}] for metadata [{key}] in message [{id}]: {fault.message}"
  | .badDate raw id fault => s!"Invalid date [{raw}] in message [{id}]: {fault.message}"
  | .badPayload id fault => s!"Invalid payload in message [{id}]: {fault.message}"
  | .unsupportedKind kind => s!"Unsupported message type [{kind}]"
  | .reported detail => detail

/-- Why a registry could not be queried. -/
inductive ConfigurationFault where
  /-- A registration was interrupted, and the registry with it. -/
  | poisonedHandlers
  | reported (detail : String)
deriving DecidableEq, Repr

/-- The wording of a configuration fault. -/
def ConfigurationFault.message : ConfigurationFault → String
  | .poisonedHandlers => "Recovery handler registry is poisoned"
  | .reported detail => detail

/-- A failure of an operation on messages. -/
inductive Failure where
  | queueing (fault : QueueFault)
  | transport (fault : DeliveryFault)
  | configuration (fault : ConfigurationFault)
  | invalidMessage (fault : MessageFault)
  /-- A handler failed on its own account. -/
  | handler (detail : String)
deriving DecidableEq, Repr

/-- The wording of a failure. -/
def Failure.message : Failure → String
  | .queueing fault => s!"Queueing error: {fault.message}"
  | .transport fault => s!"Transport error: {fault.message}"
  | .configuration fault => s!"Configuration error: {fault.message}"
  | .invalidMessage fault => s!"Invalid message: {fault.message}"
  | .handler detail => s!"Handler error: {detail}"

end PeerRelay
