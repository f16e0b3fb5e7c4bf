import PeerRelay.Failure
import PeerRelay.Text.Utf8

/-!
# Endpoints

Where a peer takes messages, and what its reply says about the delivery.
-/

namespace PeerRelay.Wire

/-- The path at which an instance takes messages. -/
def messagesPath : String := "/replication/messages"

/-- The address at which the instance of a URI takes messages; slashes at the end of the URI do
not count. -/
def endpoint (uri : String) : String :=
  String.ofList (uri.toList.reverse.dropWhile (· == '/')).reverse ++ messagesPath

/-- What came back from a peer. -/
inductive Reply where
  /-- Nothing that is a response; the detail says what happened. -/
  | nothing (detail : String)
  /-- A status and the bytes of the body; `complete` says whether all announced bytes came. -/
  | response (status : Nat) (body : List UInt8) (complete : Bool)

/-- The outcome of an attempt: every status from 200 to 299 is a success, any other rejects the
message with the text of the body, which is empty if the body did not come in full. -/
def Reply.outcome : Reply → Except DeliveryFault Unit
  | .nothing detail => .error (.noResponse detail)
  | .response status body complete =>
    if 200 ≤ status ∧ status < 300 then .ok ()
    else .error (.rejected status (if complete then Text.ofUtf8Lossy body else ""))

end PeerRelay.Wire
