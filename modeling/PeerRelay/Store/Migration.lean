import PeerRelay.Store.Database

/-!
# Setting up the database

The schema is set up by a sequence of statements, each of which is permanent at once. The
versions table says whether the sequence was run: it is left alone if the highest recorded version
is at least the current one.
-/

namespace PeerRelay.Store

/-- A statement of the setup. -/
inductive SetupStatement where
  /-- Creates the versions table unless it is there. -/
  | ensureVersions
  | createMessages
  | createTargets
  | createUriIndex
  | recordVersion (number : Int) (name : String)
deriving DecidableEq

namespace SetupStatement

/-- What a statement of the setup does; creating what exists already fails. -/
def exec (db : Database) : SetupStatement → Except StoreFault Database
  | .ensureVersions => .ok { db with versions := some (db.versions.getD []) }
  | .createMessages =>
    if db.messages.isSome then .error .engine else .ok { db with messages := some [] }
  | .createTargets =>
    if db.targets.isSome then .error .engine else .ok { db with targets := some [] }
  | .createUriIndex => do
    discard (rows db.targets)
    if db.uriIndex then throw .engine else return { db with uriIndex := true }
  | .recordVersion number name => do
    let versions ← rows db.versions
    if versions.any (·.1 = number) then throw .engine
    else return { db with versions := some (versions ++ [(number, name)]) }

end SetupStatement

namespace Migration

/-- The version of the schema that the store works with. -/
def currentVersion : Int := 1

/-- The statements of the first version. -/
def firstVersion : List SetupStatement :=
  [.createMessages, .createTargets, .createUriIndex, .recordVersion currentVersion "messages"]

/-- The highest recorded version, 0 if there is none; a version of more than 32 bits cannot be
read. -/
def recordedVersion (db : Database) : Except StoreFault Int := do
  let versions ← rows db.versions
  let highest := (versions.map (·.1)).max?.getD 0
  if -2147483648 ≤ highest ∧ highest ≤ 2147483647 then return highest else throw .engine

/-- Runs setup statements; what was done before one fails stays done. -/
def runSetup (db : Database) : List SetupStatement → Except StoreFault Unit × Database
  | [] => (.ok (), db)
  | s :: rest =>
    match s.exec db with
    | .ok db => runSetup db rest
    | .error fault => (.error fault, db)

/-- Brings the database to the current version. -/
def run (db : Database) : Except StoreFault Unit × Database :=
  match runSetup db [.ensureVersions] with
  | (.error fault, db) => (.error fault, db)
  | (.ok (), db) =>
    match recordedVersion db with
    | .error fault => (.error fault, db)
    | .ok version =>
      if currentVersion ≤ version then (.ok (), db) else runSetup db firstVersion

/-- The names of the tables that are there, in order. -/
def tables (db : Database) : List String :=
  (if db.versions.isSome then ["migrations"] else []) ++
  (if db.targets.isSome then ["replication_message_targets"] else []) ++
  (if db.messages.isSome then ["replication_messages"] else [])

/-- The names of the indexes that are there. -/
def indexes (db : Database) : List String :=
  if db.uriIndex then ["idx_replication_message_targets_uri"] else []

end Migration

/-- A database that was set up from nothing. -/
def Database.fresh : Database := (Migration.run .blank).2

end PeerRelay.Store
