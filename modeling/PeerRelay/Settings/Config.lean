import PeerRelay.Message.Json
import PeerRelay.Text.Blank

/-!
# Configuration

What an instance knows about itself, its peers and the limits of its work, and the document form
in which it is kept.
-/

namespace PeerRelay.Settings

open Json

/-- The limits of the delivery pipeline. -/
structure Limits where
  storeCapacity : Nat := 1000
  sendCapacity : Nat := 1000
  /-- How long a shutdown waits for accepted messages to be stored, in seconds. -/
  shutdownSeconds : Nat := 60
  /-- How long a failed delivery waits before it is tried again; 0 for no wait. -/
  retryMillis : Nat := 1000
deriving DecidableEq, Repr

/-- The settings of the connection to peers. -/
structure Connection where
  /-- How long a request may take, in seconds. -/
  timeoutSeconds : Nat := 30
deriving DecidableEq, Repr

/-- The instance as which we announce ourselves when none is configured. -/
def localInstance : Instance := ⟨"local", "http://127.0.0.1:8080"⟩

/-- The configuration of an instance. -/
structure Config where
  logLevel : String := "info"
  /-- This instance, as its peers know it. -/
  self : Instance := localInstance
  peers : List Instance := []
  limits : Limits := {}
  connection : Connection := {}
deriving DecidableEq, Repr

/-- The largest number of 64 bits. -/
def max64 : Nat := Nat.pow 2 64 - 1

namespace Limits

/-- The document of the limits. -/
def toJson (l : Limits) : Value :=
  .object [("store_queue_capacity", .number l.storeCapacity),
    ("send_queue_capacity", .number l.sendCapacity),
    ("shutdown_timeout_secs", .number l.shutdownSeconds),
    ("retry_delay_ms", .number l.retryMillis)]

/-- The slots of the limits; each has a default. -/
def record : Record Limits where
  title := "SenderSettings"
  blank := {}
  slots := [
    .of "store_queue_capacity" .defaulted (natural max64 "usize")
      fun l storeCapacity => { l with storeCapacity },
    .of "send_queue_capacity" .defaulted (natural max64 "usize")
      fun l sendCapacity => { l with sendCapacity },
    .of "shutdown_timeout_secs" .defaulted (natural max64 "u64")
      fun l shutdownSeconds => { l with shutdownSeconds },
    .of "retry_delay_ms" .defaulted (natural max64 "u64")
      fun l retryMillis => { l with retryMillis }]

/-- Reads the limits. -/
def decodeJson : Decoder Limits := record.decode

end Limits

namespace Connection

/-- The document of the connection settings. -/
def toJson (c : Connection) : Value :=
  .object [("timeout_secs", .number c.timeoutSeconds)]

/-- The slots of the connection settings; each has a default. -/
def record : Record Connection where
  title := "TransportSettings"
  blank := {}
  slots := [
    .of "timeout_secs" .defaulted (natural max64 "u64")
      fun c timeoutSeconds => { c with timeoutSeconds }]

/-- Reads the connection settings. -/
def decodeJson : Decoder Connection := record.decode

end Connection

namespace Config

/-- The document of a configuration. -/
def toJson (c : Config) : Value :=
  .object [("log_level", .text c.logLevel), ("instance", c.self.toJson),
    ("peers", .array (c.peers.map Instance.toJson)), ("sender", c.limits.toJson),
    ("transport", c.connection.toJson)]

/-- The slots of a configuration; only the log level has no default. -/
def record : Record Config where
  title := "Config"
  blank := {}
  slots := [
    .of "log_level" .refused text fun c logLevel => { c with logLevel },
    .of "instance" .defaulted Instance.decodeJson fun c self => { c with self },
    .of "peers" .defaulted (list Instance.decodeJson) fun c peers => { c with peers },
    .of "sender" .defaulted Limits.decodeJson fun c limits => { c with limits },
    .of "transport" .defaulted Connection.decodeJson fun c connection => { c with connection }]

/-- Reads a configuration. -/
def decodeJson : Decoder Config := record.decode

/-- The configuration with the log level of the environment, unless that is blank. -/
def overrideLogLevel (c : Config) : Option String → Config
  | some level => if (Text.trimBlank level).isEmpty then c else { c with logLevel := level }
  | none => c

end Config

end PeerRelay.Settings
