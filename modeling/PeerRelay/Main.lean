import PeerRelay.Daemon.Run
import PeerRelay.Store.Archive

/-!
# The program

Reads the files of an instance, runs a command over them and writes back what it changed. The
store is kept as the text of its records. The end of the standard input is the interrupt of a
daemon; no peer is reached from here, so that messages wait in the store.
-/

namespace PeerRelay.Program

open Daemon Settings

/-- What stands at a path. -/
def nodeAt (path : String) : IO (Option Node) := do
  try
    let content ← IO.FS.readBinFile path
    return some (.file content.toList)
  catch _ =>
    try
      let _ ← IO.FS.realPath path
      return some .directory
    catch _ => return none

/-- A file that holds a store is a database. -/
def asDatabase : Node → Node
  | .file content =>
    match (Text.ofUtf8? content).map Store.restore with
    | some (.ok db) => .database db
    | _ => .file content
  | node => node

/-- The files of an instance and the directories above them. -/
def readFiles (paths : Paths) : IO Files := do
  let mut files := Files.empty
  let mut place : Place := []
  let mut path := if paths.base.startsWith "/" then "" else "."
  for name in Files.names paths.base do
    place := Files.step place name
    path := path ++ "/" ++ name
    if let some node ← nodeAt path then files := files.set place node
  for (file, convert) in [(paths.config, id), (paths.pid, id), (paths.database, asDatabase)] do
    if let some node ← nodeAt file then files := files.set (Files.names file) (convert node)
  return files

/-- Brings a file to what a run left at its path. -/
def writeFile (before after : Files) (path : String) : IO Unit := do
  match after.get? path with
  | some (.file content) =>
    if before.get? path ≠ after.get? path then
      IO.FS.writeBinFile path ⟨content.toArray⟩
  | some (.database db) =>
    if let .ok text := Store.archive db then IO.FS.writeFile path text
  | some .directory => return
  | none => if (before.get? path).isSome then IO.FS.removeFile path

/-- Brings the files of an instance to what a run left. -/
def writeFiles (paths : Paths) (before after : Files) : IO Unit := do
  if after.isDirectory paths.base then IO.FS.createDirAll paths.base
  writeFile before after paths.database
  writeFile before after paths.pid

/-- A fresh identifier, of random digits in five groups. -/
def freshId : IO String := do
  let mut digits : List Char := []
  for i in List.range 32 do
    let n ← IO.rand 0 15
    let n := if i = 12 then 4 else if i = 16 then 8 + n % 4 else n
    digits := digits ++ [Nat.digitChar n]
    if [7, 11, 15, 19].contains i then digits := digits ++ ['-']
  return String.ofList digits

/-- What the process finds around it. -/
def surroundings : IO Surroundings := do
  let own ← IO.FS.realPath "/proc/self"
  let now := (← own.metadata).modified
  let date := (Calendar.Instant.ofParts? now.sec now.nsec.toNat).getD .epoch
  return {
    home := (← IO.getEnv "HOME").getD ""
    logFilter := ← IO.getEnv "RUST_LOG"
    logLevel := ← IO.getEnv "REPLICATION_LOG_LEVEL"
    logForm := ← IO.getEnv "REPLICATION_LOG_FORMAT"
    process := own.fileName.getD ""
    script := { offline := true, latency := 1 }
    stamp := ⟨← freshId, date⟩ }

/-- Waits for the end of the standard input. -/
partial def awaitInterrupt (input : IO.FS.Stream) : IO Unit := do
  if (← input.getLine).isEmpty then return
  awaitInterrupt input

/-- Prints what a run printed and how it failed. -/
def report (o : Outcome) : IO UInt32 := do
  IO.print o.scene.output
  if o.exitCode = 2 then IO.eprintln usage
  if let some failure := o.failure then IO.eprintln s!"Error: {failure}"
  return o.exitCode.toUInt32

end PeerRelay.Program

open PeerRelay PeerRelay.Program in
/-- Runs the program. -/
def main (args : List String) : IO UInt32 := do
  let s ← surroundings
  let paths := match Daemon.Arguments.parse args with
    | .ok a => a.paths s.home
    | .error _ => Settings.Paths.ofHome s.home
  let files ← readFiles paths
  match Daemon.progress s args files with
  | .ended outcome =>
    writeFiles paths files outcome.scene.files
    report outcome
  | .waiting scene outcome =>
    writeFiles paths files scene.files
    awaitInterrupt (← IO.getStdin)
    writeFiles paths scene.files outcome.scene.files
    report outcome
