import PeerRelay.Store.Database

/-!
# Files

A tree of directories, with files of bytes and databases in them. A place is given by the names on
the way to it from the root, which is always there.

A path is read name by name. Every place on the way has to be a directory, also one that `..`
leaves again.
-/

namespace PeerRelay

/-- What stands at a place. -/
inductive Node where
  | directory
  | file (content : List UInt8)
  | database (db : Store.Database)
deriving DecidableEq

/-- The names on the way from the root. -/
abbrev Place := List String

/-- The tree, as a list of its places other than the root. -/
structure Files where
  nodes : List (Place × Node)
deriving DecidableEq

namespace Files

/-- A tree with nothing below the root. -/
def empty : Files := ⟨[]⟩

/-- The names in a path; empty ones and those that stay at a place do not count. -/
def names (path : String) : List String :=
  (path.splitOn "/").filter fun name => name ≠ "" ∧ name ≠ "."

/-- What stands at a place. -/
def at? (f : Files) (place : Place) : Option Node :=
  if place.isEmpty then some .directory else f.nodes.lookup place

/-- The place that a name leads to. -/
def step (here : Place) (name : String) : Place :=
  if name = ".." then here.dropLast else here ++ [name]

/-- The place that names lead to. -/
def place? (f : Files) (here : Place) : List String → Option Place
  | [] => some here
  | name :: rest =>
    if f.at? here = some .directory then f.place? (step here name) rest else none

/-- What stands at a path. -/
def get? (f : Files) (path : String) : Option Node := do
  f.at? (← f.place? [] (names path))

/-- Whether a directory stands at a path. -/
def isDirectory (f : Files) (path : String) : Bool :=
  f.get? path = some .directory

/-- Puts something at a place, in place of what was there. -/
def set (f : Files) (place : Place) (node : Node) : Files :=
  ⟨(place, node) :: f.nodes.filter (·.1 ≠ place)⟩

/-- Puts something other than a directory at a path, if the path leads to a place in a directory
that is not one itself. -/
def put? (f : Files) (path : String) (node : Node) : Option Files := do
  let place ← f.place? [] (names path)
  if f.at? place = some .directory ∨ f.at? place.dropLast ≠ some .directory then none
  return f.set place node

/-- Takes away what stands at a path, unless it is a directory. -/
def remove (f : Files) (path : String) : Files :=
  match f.place? [] (names path) with
  | some place => if f.at? place = some .directory then f else ⟨f.nodes.filter (·.1 ≠ place)⟩
  | none => f

/-- Creates the directories that names lead through, as far as they are missing. -/
def createFrom? (f : Files) (here : Place) : List String → Option Files
  | [] => some f
  | name :: rest =>
    let next := step here name
    match f.at? next with
    | none => (f.set next .directory).createFrom? next rest
    | some .directory => f.createFrom? next rest
    | some _ => none

/-- Creates the directory at a path with all that lead to it, unless something else is in the
way. -/
def createAll? (f : Files) (path : String) : Option Files :=
  f.createFrom? [] (names path)

end Files

end PeerRelay
