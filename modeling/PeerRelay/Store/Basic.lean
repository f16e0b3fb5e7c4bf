import PeerRelay.Message.Json
import PeerRelay.Store.Migration

/-!
# The message store

Holds every message that still has peers to reach. Writing a message with the id of a stored one
replaces it with its peers but keeps its place. A message goes with the last of its peers.

Loading reads all rows before it changes anything. A cell of the wrong kind makes it fail as a
whole; a message whose texts cannot be decoded is left out and stays stored; a message without
peers is deleted.
-/

namespace PeerRelay.Store

open Calendar

/-- A stored message with the peers it has yet to reach. -/
structure Record where
  message : Message
  targets : List Instance
deriving DecidableEq

/-! ### Encoding -/

/-- The row of a message. -/
def MessageRow.ofMessage (m : Message) : MessageRow where
  id := .text m.id
  kind := .text m.kind
  date := .text (DateText.encode m.date)
  source := m.source.map .text
  receivers := .text (Json.Value.ofTexts m.receivers.toList).compact
  metadata := .text m.metadata.toJson.compact
  payload := .blob m.payload

/-- The rows of the peers of a message, from a position on. -/
def targetRows (id : String) (position : Nat) : List Instance → List TargetRow
  | [] => []
  | i :: rest => ⟨id, position, .text i.uri, .text i.name⟩ :: targetRows id (position + 1) rest

/-- The text of a cell that must hold one. -/
def Cell.text? : Cell → Except StoreFault String
  | .text s => .ok s
  | .blob _ => .error .engine

/-- The bytes of a cell that must hold bytes. -/
def Cell.bytes? : Cell → Except StoreFault (List UInt8)
  | .blob bytes => .ok bytes
  | .text _ => .error .engine

/-- A row of which every cell is of its kind. -/
structure TypedRow where
  id : String
  kind : String
  date : String
  source : Option String
  receivers : String
  metadata : String
  payload : List UInt8

/-- Reads the cells of a message. -/
def MessageRow.typed (row : MessageRow) : Except StoreFault TypedRow := do
  let source ← row.source.mapM Cell.text?
  return ⟨← row.id.text?, ← row.kind.text?, ← row.date.text?, source, ← row.receivers.text?,
    ← row.metadata.text?, ← row.payload.bytes?⟩

/-- The message of a row, if its texts can be decoded. -/
def TypedRow.message? (row : TypedRow) : Option Message := do
  let date ← (DateText.decode row.date).toOption
  let receivers ← (Json.decodeText decodeTextSetJson row.receivers).toOption
  let metadata ← (Json.decodeText Metadata.decodeJson row.metadata).toOption
  return ⟨row.id, date, row.kind, row.source, receivers, metadata, row.payload⟩

/-- The peer of a row. -/
def TargetRow.instance? (row : TargetRow) : Except StoreFault Instance := do
  return ⟨← row.name.text?, ← row.uri.text?⟩

/-- The rows of the peers of a message in the order of their positions. -/
def targetsOf (id : String) (targets : List TargetRow) : List TargetRow :=
  (targets.filter (·.messageId = id)).mergeSort fun a b => a.position ≤ b.position

/-! ### Operations -/

/-- The statements that store a message. -/
def writeStatements (m : Message) (targets : List Instance) : List Statement :=
  .putMessage (.ofMessage m) :: .clearTargets m.id ::
    ((targetRows m.id 0 targets).map .insertTarget ++ [.commit])

/-- Stores a message with the peers it has to reach, each URI once; the answer holds the message
as it was given. -/
def write (db : Database) (m : Message) (targets : List Instance)
    (fails : Nat → Bool := fun _ => false) : Except StoreFault Record × Database :=
  match distinctByUri targets with
  | [] => (.error (.noTarget m.id), db)
  | distinct =>
    match transaction fails db (writeStatements m distinct) with
    | (.ok (), db) => (.ok ⟨m, distinct⟩, db)
    | (.error fault, db) => (.error fault, db)

/-- The statements that take a peer off a message. -/
def removeStatements (id uri : String) : List Statement :=
  [.deleteTarget id uri, .countTargets id, .deleteFinished id, .commit]

/-- Takes a peer off a message, and deletes the message with its last peer. A peer or a message
that is not there changes nothing. -/
def remove (db : Database) (id uri : String) (fails : Nat → Bool := fun _ => false) :
    Except StoreFault Unit × Database :=
  transaction fails db (removeStatements id uri)

/-- Every message row with its peers, all read. -/
def readRows (db : Database) : Except StoreFault (List (TypedRow × List Instance)) := do
  let messages ← rows db.messages
  let typed ← messages.mapM MessageRow.typed
  let targets ← rows db.targets
  typed.mapM fun row => do
    return (row, ← (targetsOf row.id targets).mapM TargetRow.instance?)

/-- The record of a row that has peers and can be decoded. -/
def record? : TypedRow × List Instance → Option Record
  | (_, []) => none
  | (row, targets) => row.message?.map (⟨·, targets⟩)

/-- Deletes the messages with the given ids. -/
def purge (db : Database) (ids : List String) : Database :=
  { db with messages := db.messages.map (·.filter fun r => ids.all (.text · ≠ r.id)) }

/-- Every stored record, the one stored first in front; messages without peers are deleted. -/
def load (db : Database) : Except StoreFault (List Record) × Database :=
  match readRows db with
  | .error fault => (.error fault, db)
  | .ok read =>
    let orphans := (read.filter (·.2.isEmpty)).map (·.1.id)
    (.ok (read.filterMap record?), purge db orphans)

/-- The number of stored messages. -/
def count (db : Database) : Except StoreFault Nat :=
  List.length <$> rows db.messages

/-- For each URI the number of messages that have yet to reach it, by the bytes of the URI. -/
def countByTarget (db : Database) : Except StoreFault (List (String × Nat)) := do
  let targets ← rows db.targets
  let uris ← targets.mapM (·.uri.text?)
  let counts : Text.TextMap Nat := uris.foldl (fun m uri => m.alter uri (·.getD 0 + 1)) ∅
  return counts.entries

end PeerRelay.Store
