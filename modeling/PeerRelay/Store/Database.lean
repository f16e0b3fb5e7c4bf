import PeerRelay.Text.Ordered

/-!
# The database of outstanding messages

Two tables: one row for each message that still has peers to reach, in the order in which the
messages were first stored, and one row for each peer that a message has yet to reach. A third
table says which versions of the schema were set up.

Cells are texts or blobs, as anything may be written behind the store's back. A table may be
missing, and then every statement that mentions it fails. The engine keeps two rules by itself:
the rows of a message's peers go with the message, and no message has two rows for one peer.

A statement may also fail for a reason of the engine's own. `transaction` takes the numbers of
the statements that do, and undoes everything when one fails.
-/

namespace PeerRelay.Store

/-- A value in a table. -/
inductive Cell where
  | text (s : String)
  | blob (bytes : List UInt8)
deriving DecidableEq

/-- The row of a message; a source may be absent. -/
structure MessageRow where
  id : Cell
  kind : Cell
  date : Cell
  source : Option Cell
  receivers : Cell
  metadata : Cell
  payload : Cell
deriving DecidableEq

/-- The row of a peer that a message has yet to reach. -/
structure TargetRow where
  messageId : String
  /-- The place of the peer among the peers of the message. -/
  position : Nat
  uri : Cell
  name : Cell
deriving DecidableEq

/-- The tables; `none` stands for a table that is missing. -/
structure Database where
  /-- The numbers and names of the versions that were set up. -/
  versions : Option (List (Int × String))
  messages : Option (List MessageRow)
  targets : Option (List TargetRow)
  /-- Whether the peers of all messages are indexed by URI. -/
  uriIndex : Bool
deriving DecidableEq

namespace Database

/-- A database without any table. -/
def blank : Database := ⟨none, none, none, false⟩

end Database

/-- Why the store did not do what it was asked for. -/
inductive StoreFault where
  /-- The database engine failed or found what it cannot read. -/
  | engine
  /-- A file or directory could not be used. -/
  | file
  /-- A message without any peer to reach cannot be stored. -/
  | noTarget (id : String)
deriving DecidableEq, Repr

/-- What is wrong with a message that has no peer to reach. -/
def noTargetDetail (id : String) : String :=
  s!"Message [{id}] has no target to store"

/-- The wording of the faults that have one of their own. -/
def StoreFault.message : StoreFault → String
  | .engine => "SQLite error"
  | .file => "IO error"
  | .noTarget id => s!"Invalid data: {noTargetDetail id}"

/-- The rows of a table that must be there. -/
def rows {α : Type} : Option α → Except StoreFault α
  | some table => .ok table
  | none => .error .engine

/-- Replaces the row with the id of a new one, which keeps its place, or adds the new row at the
end. -/
def upsert (row : MessageRow) (table : List MessageRow) : List MessageRow :=
  if table.any (·.id = row.id) then table.map fun r => if r.id = row.id then row else r
  else table ++ [row]

/-- A change of the tables. -/
inductive Statement where
  | putMessage (row : MessageRow)
  /-- Deletes all peers of a message. -/
  | clearTargets (id : String)
  | insertTarget (row : TargetRow)
  | deleteTarget (id uri : String)
  /-- Counts the peers of a message, which changes nothing. -/
  | countTargets (id : String)
  /-- Deletes a message if no peer of it is left. -/
  | deleteFinished (id : String)
  /-- Makes the changes before it permanent. -/
  | commit
deriving DecidableEq

namespace Statement

/-- What a statement does to the database. The peers of a message refer to it, so their table can
be changed only while the table of messages is there. -/
def exec (db : Database) : Statement → Except StoreFault Database
  | .putMessage row => do
    let messages ← rows db.messages
    return { db with messages := some (upsert row messages) }
  | .clearTargets id => do
    let targets ← rows db.targets
    discard (rows db.messages)
    return { db with targets := some (targets.filter (·.messageId ≠ id)) }
  | .insertTarget row => do
    let targets ← rows db.targets
    let messages ← rows db.messages
    let known := messages.any (·.id = .text row.messageId)
    let repeated := targets.any fun r => r.messageId = row.messageId ∧ r.uri = row.uri
    if known ∧ ¬ repeated then return { db with targets := some (targets ++ [row]) }
    else throw .engine
  | .deleteTarget id uri => do
    let targets ← rows db.targets
    discard (rows db.messages)
    return { db with
      targets := some (targets.filter fun r => ¬ (r.messageId = id ∧ r.uri = .text uri)) }
  | .countTargets _ => do
    discard (rows db.targets)
    return db
  | .deleteFinished id => do
    let targets ← rows db.targets
    if targets.any (·.messageId = id) then return db
    else
      let messages ← rows db.messages
      return { db with messages := some (messages.filter (·.id ≠ .text id)) }
  | .commit => return db

end Statement

/-- Runs statements one after the other. `fails` says which of them, by number, the engine lets
fail for a reason of its own. -/
def runStatements (fails : Nat → Bool) (number : Nat) (db : Database) :
    List Statement → Except StoreFault Database
  | [] => .ok db
  | s :: rest => do
    if fails number then throw .engine
    runStatements fails (number + 1) (← s.exec db) rest

/-- Runs statements as a whole: if one fails, the database stays as it was. -/
def transaction (fails : Nat → Bool) (db : Database) (statements : List Statement) :
    Except StoreFault Unit × Database :=
  match runStatements fails 0 db statements with
  | .ok db' => (.ok (), db')
  | .error fault => (.error fault, db)

end PeerRelay.Store
