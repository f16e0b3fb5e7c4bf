import PeerRelay.Files
import PeerRelay.Store.Basic

/-!
# Opening the store

The store lives in a database at a path. Opening creates the directories above it and the database
if they are missing, and brings the database to the current version. An empty file counts as a
missing database; any other file is none.
-/

namespace PeerRelay.Store

/-- The database at a path, before it is brought to the current version. -/
def databaseAt (f : Files) (path : String) : Except StoreFault Database :=
  match f.get? path with
  | none | some (.file []) => .ok .blank
  | some (.database db) => .ok db
  | some .directory | some (.file _) => .error .engine

/-- Creates the directories above a path. -/
def createAbove (f : Files) (path : String) : Except StoreFault Files :=
  match f.createFrom? [] (Files.names path).dropLast with
  | some f => .ok f
  | none => .error .file

/-- Opens the store at a path. What was done before a fault stays done. -/
def openAt (f : Files) (path : String) : Except StoreFault Database × Files :=
  match createAbove f path with
  | .error fault => (.error fault, f)
  | .ok f =>
    match databaseAt f path with
    | .error fault => (.error fault, f)
    | .ok db =>
      let (result, db) := Migration.run db
      match f.put? path (.database db) with
      | none => (.error .engine, f)
      | some f => (result.map fun () => db, f)

end PeerRelay.Store
