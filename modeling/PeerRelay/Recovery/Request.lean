import PeerRelay.Recovery.Window

/-!
# Asking for a recovery

The window and the peers of a recovery request as someone asks for them: the bounds as dates in
text, the lower one first, and the peers by their URIs. Without URIs every peer is asked.
-/

namespace PeerRelay.Recovery

open Calendar

/-- Why two texts do not bound a window. -/
inductive WindowFault where
  | badLower (raw : String) (fault : ReadingFault)
  | badUpper (raw : String) (fault : ReadingFault)
  | reversed (lower upper : String)
deriving DecidableEq, Repr

/-- The wording of a window fault. -/
def WindowFault.message : WindowFault → String
  | .badLower raw fault => s!"Invalid --from date [{raw}]: {fault.message}"
  | .badUpper raw fault => s!"Invalid --to date [{raw}]: {fault.message}"
  | .reversed lower upper => s!"--from [{lower}] is after --to [{upper}]"

/-- The window between two dates. -/
def Window.ofTexts (lower upper : String) : Except WindowFault Window := do
  let dateMin ← (DateText.decode lower).mapError (.badLower lower)
  let dateMax ← (DateText.decode upper).mapError (.badUpper upper)
  if dateMin ≤ dateMax then return ⟨dateMin, dateMax⟩ else throw (.reversed lower upper)

/-- Why nobody is asked. -/
inductive SelectionFault where
  | unknownPeer (uri : String)
  | noPeer
deriving DecidableEq, Repr

/-- The wording of a selection fault. -/
def SelectionFault.message : SelectionFault → String
  | .unknownPeer uri => s!"Unknown peer [{uri}]"
  | .noPeer => "No peer to recover from"

/-- The peer with a URI. -/
def findPeer (peers : List Instance) (uri : String) : Except SelectionFault Instance :=
  match peers.find? (·.uri == uri) with
  | some peer => .ok peer
  | none => .error (.unknownPeer uri)

/-- The peers with the given URIs, in their order and as often as they are mentioned; all peers if
no URI is given. -/
def selectPeers (peers : List Instance) (uris : List String) :
    Except SelectionFault (List Instance) :=
  if uris.isEmpty then .ok peers else uris.mapM (findPeer peers)

end PeerRelay.Recovery
