import PeerRelay.Json.Decode
import PeerRelay.Store.Basic

/-!
# The store as a text

The records of a store as a document, from which the store can be built again: each record with
its message and the peers it has yet to reach, in the order in which they were stored.
-/

namespace PeerRelay.Store

/-- The document of a record. -/
def Record.toJson (r : Record) : Json.Value :=
  .object [("message", r.message.toJson), ("targets", .array (r.targets.map Instance.toJson))]

/-- The slots of a record. -/
def Record.slots : Json.Record Record where
  title := "Record"
  blank := ⟨Message.unfilled, []⟩
  slots := [
    .of "message" .refused Message.decodeJson fun r message => { r with message },
    .of "targets" .refused (Json.list Instance.decodeJson) fun r targets => { r with targets }]

/-- The text of the records of a store. -/
def archive (db : Database) : Except StoreFault String := do
  let records ← (load db).1
  return (Json.Value.array (records.map Record.toJson)).compact

/-- Stores a record again. -/
def restoreRecord (db : Database) (r : Record) : Except StoreFault Database :=
  match write db r.message r.targets with
  | (.ok _, db) => .ok db
  | (.error fault, _) => .error fault

/-- The store with the records in a text. -/
def restore (text : String) : Except StoreFault Database :=
  match Json.decodeText (Json.list Record.slots.decode) text with
  | .ok records => records.foldlM restoreRecord .fresh
  | .error _ => .error .engine

end PeerRelay.Store
