import PeerRelay.Store.Database

/-!
# Edits behind the store's back

Changes that another program makes to the tables: cells of any kind, rows deleted, tables dropped.
The engine still keeps its rules: the peers of a deleted message go with it, an id that peers refer
to cannot be changed, and no message gets two rows for one peer. Every edit answers the number of
rows it changed.
-/

namespace PeerRelay.Store

/-- A column of the table of messages. -/
inductive MessageColumn where
  | id | kind | date | source | receivers | metadata | payload
deriving DecidableEq

/-- A column of the table of peers. -/
inductive TargetColumn where
  | uri | name
deriving DecidableEq

/-- The row with one cell changed. -/
def MessageRow.set (row : MessageRow) (cell : Cell) : MessageColumn → MessageRow
  | .id => { row with id := cell }
  | .kind => { row with kind := cell }
  | .date => { row with date := cell }
  | .source => { row with source := some cell }
  | .receivers => { row with receivers := cell }
  | .metadata => { row with metadata := cell }
  | .payload => { row with payload := cell }

/-- The row with one cell changed. -/
def TargetRow.set (row : TargetRow) (cell : Cell) : TargetColumn → TargetRow
  | .uri => { row with uri := cell }
  | .name => { row with name := cell }

/-- A change made by another program. -/
inductive Edit where
  | setMessage (id : String) (column : MessageColumn) (cell : Cell)
  /-- Changes all peers of a message. -/
  | setTarget (id : String) (column : TargetColumn) (cell : Cell)
  | deleteTargets (id : String)
  | deleteMessage (id : String)
  | dropTargets
  | dropMessages

/-- Whether some message has two rows for one peer. -/
def repeatsTarget : List TargetRow → Bool
  | [] => false
  | row :: rest =>
    rest.any (fun r => r.messageId = row.messageId ∧ r.uri = row.uri) || repeatsTarget rest

/-- Whether two messages share an id. -/
def repeatsId : List MessageRow → Bool
  | [] => false
  | row :: rest => rest.any (·.id = row.id) || repeatsId rest

/-- What an edit does, with the number of rows that it changed. -/
def Edit.exec (db : Database) : Edit → Except StoreFault (Nat × Database)
  | .setMessage id column cell => do
    let messages ← rows db.messages
    let concerned (r : MessageRow) : Bool := r.id = .text id
    let changed := messages.map fun r => if concerned r then r.set cell column else r
    let referred := (db.targets.getD []).any (·.messageId = id)
    let moved := column = .id ∧ cell ≠ .text id ∧ messages.any concerned
    if moved ∧ (referred ∨ repeatsId changed) then throw .engine
    return (messages.countP concerned, { db with messages := some changed })
  | .setTarget id column cell => do
    let targets ← rows db.targets
    let concerned (r : TargetRow) : Bool := r.messageId = id
    let changed := targets.map fun r => if concerned r then r.set cell column else r
    if repeatsTarget changed then throw .engine
    return (targets.countP concerned, { db with targets := some changed })
  | .deleteTargets id => do
    let targets ← rows db.targets
    return (targets.countP (·.messageId = id),
      { db with targets := some (targets.filter (·.messageId ≠ id)) })
  | .deleteMessage id => do
    let messages ← rows db.messages
    let known := messages.any (·.id = .text id)
    return (messages.countP (·.id = .text id), { db with
      messages := some (messages.filter (·.id ≠ .text id))
      targets := if known then db.targets.map (·.filter (·.messageId ≠ id)) else db.targets })
  | .dropTargets => do
    discard (rows db.targets)
    return (0, { db with targets := none, uriIndex := false })
  | .dropMessages => do
    discard (rows db.messages)
    return (0, { db with messages := none })

end PeerRelay.Store
