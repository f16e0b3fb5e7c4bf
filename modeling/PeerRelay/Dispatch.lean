import PeerRelay.Event

/-!
# Dispatch of inbound messages

Each type of message has at most one receiver, the one registered last. Dispatching reports the
message as received before its receiver runs and as handled after the receiver succeeded. A
message of an unknown type reaches nobody and leaves no event.

Receivers are tasks: they may fail and they act on a state of the caller's choice.
-/

namespace PeerRelay

/-- A computation on a state that may fail; what it did to the state before failing stays. -/
abbrev Task (σ : Type) := ExceptT Failure (StateM σ)

/-- What handles the messages of a type. -/
abbrev Receiver (σ : Type) := Received → Task σ Unit

/-- The receivers of the known message types. -/
structure Dispatcher (σ : Type) where
  receivers : Text.TextMap (Receiver σ)

namespace Dispatcher

variable {σ : Type}

/-- A dispatcher that knows no type. -/
def empty : Dispatcher σ := ⟨∅⟩

/-- Registers the receiver of a type in place of any other. -/
def register (d : Dispatcher σ) (kind : String) (receiver : Receiver σ) : Dispatcher σ :=
  ⟨d.receivers.insert kind receiver⟩

/-- Whether the type has a receiver. -/
def isRegistered (d : Dispatcher σ) (kind : String) : Bool :=
  d.receivers.contains kind

/-- What came of dispatching a message. -/
structure Outcome (σ : Type) where
  result : Except Failure Unit
  events : List Event
  state : σ

/-- Hands a message to the receiver of its type. -/
def dispatch (d : Dispatcher σ) (r : Received) (state : σ) : Outcome σ :=
  match d.receivers.find? r.message.kind with
  | none => ⟨.error (.invalidMessage (.unsupportedKind r.message.kind)), [], state⟩
  | some receiver =>
    match (receiver r).run.run state with
    | (.ok _, state) =>
      ⟨.ok (), [Event.inbound .received r, Event.inbound .handled r], state⟩
    | (.error failure, state) => ⟨.error failure, [Event.inbound .received r], state⟩

end Dispatcher

end PeerRelay
