import PeerRelay.Settings.Config
import PeerRelay.Url

/-!
# Validation of a configuration

A configuration is sound if all its URIs are URLs, no peer is the instance itself or listed twice,
and the queues have room. The faults are looked for in this order: the URI of the instance, then
peer by peer the URI, the instance itself and repetition, then the queues; the first one is
reported.
-/

namespace PeerRelay.Settings

/-- What is wrong with a configuration. -/
inductive ConfigFault where
  | badUri (fault : Url.Fault)
  /-- A peer has the URI of the instance itself. -/
  | selfPeer (uri : String)
  | repeatedPeer (uri : String)
  | noCapacity
deriving DecidableEq, Repr

namespace ConfigFault

/-- The wording of a fault that is not about the form of a URI. -/
def detail : ConfigFault → String
  | .badUri fault => fault.message
  | .selfPeer uri => s!"Peer [{uri}] is the local instance"
  | .repeatedPeer uri => s!"Peer [{uri}] is listed more than once"
  | .noCapacity => "Queue capacities must be at least 1"

/-- The wording of a fault. -/
def message : ConfigFault → String
  | .badUri fault => s!"Invalid URL: {fault.message}"
  | fault => s!"Configuration error: {fault.detail}"

end ConfigFault

/-- How the form of a URI is judged. -/
abbrev UriCheck := String → Except Url.Fault Unit

/-- Checks the form of a URI. -/
def checkUri (check : UriCheck) (uri : String) : Except ConfigFault Unit :=
  (check uri).mapError .badUri

/-- Checks peers after those whose URIs were seen. -/
def checkPeers (check : UriCheck) (self : String) (seen : List String) :
    List Instance → Except ConfigFault Unit
  | [] => .ok ()
  | peer :: rest => do
    checkUri check peer.uri
    if peer.uri = self then throw (.selfPeer peer.uri)
    if peer.uri ∈ seen then throw (.repeatedPeer peer.uri)
    checkPeers check self (peer.uri :: seen) rest

/-- Checks a configuration, with `check` to judge the form of a URI. -/
def Config.validateWith (check : UriCheck) (c : Config) : Except ConfigFault Unit := do
  checkUri check c.self.uri
  checkPeers check c.self.uri [] c.peers
  if c.limits.storeCapacity = 0 ∨ c.limits.sendCapacity = 0 then throw .noCapacity

/-- Checks a configuration. -/
def Config.validate (c : Config) : Except ConfigFault Unit :=
  c.validateWith Url.check

end PeerRelay.Settings
