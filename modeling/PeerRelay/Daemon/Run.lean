import PeerRelay.Daemon.Arguments
import PeerRelay.Daemon.Pipeline
import PeerRelay.Settings.Logging
import PeerRelay.Settings.Storage
import PeerRelay.Settings.Validation
import PeerRelay.Store.Opening
import PeerRelay.Text.Quoted

/-!
# A run of the program

What the program prints, logs and leaves behind, given its arguments, the environment and the
files. A run fails with the first fault; what was printed and written before it stays.

The daemon checks its configuration before anything else, then takes away what an earlier daemon
left as its process number and writes its own, which is there as long as it runs. It runs until it
is interrupted.
-/

namespace PeerRelay.Daemon

open Settings Delivery

/-- The text that names the program and its version. -/
def versionLine : String := "replication-daemon 0.1.0"

/-- How the program is called. -/
def usage : String :=
  "Usage: replication-daemon [--log-level LEVEL] [--base-dir DIR] " ++
    "[start | status | recover --from DATE --to DATE [--peer URI]...]"

/-- What a run finds around it. -/
structure Surroundings where
  /-- The home directory. -/
  home : String
  /-- The filter of the log, over every level that is configured. -/
  logFilter : Option String
  logLevel : Option String
  logForm : Option String
  /-- The number of the process. -/
  process : String
  /-- How the calls of the store and of the peers go. -/
  script : Script
  /-- For a message of our own. -/
  stamp : Message.Stamp

/-! ### Faults -/

/-- Why a run fails. -/
inductive RunFault where
  | storage (fault : StorageFault)
  | config (fault : ConfigFault)
  | store (fault : Store.StoreFault)
  /-- A file of the daemon could not be written. -/
  | file
  | window (fault : Recovery.WindowFault)
  | selection (fault : Recovery.SelectionFault)
  | queue (fault : QueueFault)
  | uncertain (stopped : Stopped)

/-- The name of the way in which a pipeline stopped. -/
def stoppedName : Stopped → String
  | .drained => "Drained"
  | .cancelled => "Cancelled"
  | .alreadyStopped => "AlreadyStopped"

/-- The description of a fault: its cause by name, or words in quotes. -/
def RunFault.describe : RunFault → String
  | .storage .file | .file | .store .file => "Io"
  | .storage (.document _) => "Json"
  | .config (.badUri fault) => s!"InvalidUrl({fault.name})"
  | .config fault => s!"Config({Text.diagnostic fault.detail})"
  | .store .engine => "Sqlite"
  | .store (.noTarget id) => s!"InvalidData({Text.diagnostic (Store.noTargetDetail id)})"
  | .window fault => Text.diagnostic fault.message
  | .selection fault => Text.diagnostic fault.message
  | .queue fault => s!"Queueing({Text.diagnostic fault.message})"
  | .uncertain stopped =>
    Text.diagnostic s!"Recovery request may not be stored: {stoppedName stopped}"

/-! ### Scenes -/

/-- What a run has done so far. -/
structure Scene where
  files : Files
  output : String
  /-- What was said, latest first. -/
  notes : List Note
  /-- Whether the daemon came to wait for the interrupt. -/
  started : Bool
deriving DecidableEq

/-- A part of a run. -/
abbrev Act := ExceptT RunFault (StateM Scene)

namespace Act

/-- Prints a line. -/
def say (line : String) : Act Unit :=
  modify fun s => { s with output := s.output ++ line ++ "\n" }

/-- Says something on the log. -/
def note (level : LogLevel) (origin : String) : Act Unit :=
  modify fun s => { s with notes := ⟨level, origin⟩ :: s.notes }

/-- Goes on with a result, or fails with its fault. -/
def demand {ε α : Type} (fault : ε → RunFault) : Except ε α → Act α
  | .ok a => pure a
  | .error e => throw (fault e)

/-- Goes on with the changed files, if the change was possible. -/
def change (f : Files → Option Files) : Act Unit := do
  match f (← get).files with
  | some files => modify fun s => { s with files }
  | none => throw .file

end Act

/-! ### The parts that notes come from -/

/-- The part that reads settings. -/
def settingsOrigin : String := "replication_config_and_utils"

/-- The part that stores messages. -/
def storeOrigin : String := "replication_message_store"

/-- The part that reports what happened to messages. -/
def eventOrigin : String := "replication_core"

/-- The part that delivers messages. -/
def senderOrigin : String := "replication_sender"

/-- The part that runs commands. -/
def daemonOrigin : String := "replication_daemon"

/-! ### Commands -/

/-- Opens the store. -/
def openStore (paths : Paths) : Act Store.Database := do
  let (result, files) := Store.openAt (← get).files paths.database
  modify fun s => { s with files }
  let db ← Act.demand .store result
  Act.note .info storeOrigin
  return db

/-- Keeps the database of a pipeline. -/
def keep (paths : Paths) (stage : Stage) : Act Unit :=
  Act.change (·.put? paths.database (.database stage.world.db))

/-- Opens the store and starts the pipeline over it. -/
def openPipeline (s : Surroundings) (config : Config) (paths : Paths) : Act Stage := do
  Act.change (·.createAll? paths.base)
  let db ← openStore paths
  Act.note .info daemonOrigin
  let stage := startPipeline config s.script db
  Act.note .info senderOrigin
  return stage

/-- Runs the daemon up to the point where it waits for the interrupt. -/
def start (s : Surroundings) (config : Config) (paths : Paths) : Act Stage := do
  Act.demand .config config.validate
  modify fun scene => { scene with files := scene.files.remove paths.pid }
  Act.note .info daemonOrigin
  if config.peers.isEmpty then Act.note .warn daemonOrigin
  let stage := (← openPipeline s config paths).settle
  Act.change (·.put? paths.pid (.file (Text.utf8 s.process)))
  if stage.world.trace.any fun (_, o) => o matches .attempt .. then
    Act.note .error senderOrigin
  modify fun scene => { scene with started := true }
  keep paths stage
  return stage

/-- Ends the daemon after the interrupt. -/
def stop (paths : Paths) (stage : Stage) : Act Unit := do
  match stage.shutdown with
  | some (_, stage) => keep paths stage
  | none => keep paths stage
  modify fun scene => { scene with files := scene.files.remove paths.pid }

/-- Prints whether a daemon runs and how many messages wait for whom. -/
def status (paths : Paths) : Act Unit := do
  let process? := match (← get).files.get? paths.pid with
    | some (.file content) => Text.ofUtf8? content
    | _ => none
  match process? with
  | some process => Act.say s!"Daemon is running (PID {Text.trimBlank process})"
  | none => Act.say "Daemon is not running (PID file not found)"
  if ((← get).files.get? paths.database).isNone then
    Act.say s!"No message store at {paths.database}"
  else
    let db ← openStore paths
    Act.say s!"  Store:   {paths.database}"
    let pending ← Act.demand .store (Store.count db)
    Act.say s!"  Pending: {pending} message(s)"
    for (uri, n) in ← Act.demand .store (Store.countByTarget db) do
      Act.say s!"    {uri}: {n}"

/-- Asks peers for a recovery. -/
def recover (s : Surroundings) (config : Config) (paths : Paths) (lower upper : String)
    (peers : List String) : Act Unit := do
  let window ← Act.demand .window (Recovery.Window.ofTexts lower upper)
  Act.demand .config config.validate
  let targets ← Act.demand .selection (Recovery.selectPeers config.peers peers)
  if targets.isEmpty then throw (.selection .noPeer)
  let (requested, stage) :=
    requestRecovery (← openPipeline s config paths) window s.stamp targets
  if !stage.world.events.isEmpty then Act.note .info eventOrigin
  keep paths stage
  match requested with
  | .queued =>
    Act.say s!"Recovery request {s.stamp.id} queued for {targets.length} peer(s)"
  | .refused fault => throw (.queue fault)
  | .uncertain stopped => throw (.uncertain stopped)

/-! ### Runs -/

/-- The configuration that holds, and the filter of the log. -/
def configure (s : Surroundings) (a : Arguments) (paths : Paths) : Act (Config × LogFilter) := do
  let config ← Act.demand .storage (Config.load (← get).files paths s.logLevel)
  Act.note .debug settingsOrigin
  return (config, LogFilter.choose s.logFilter (a.logLevel.getD config.logLevel))

/-- The paths that arguments ask for. -/
def Arguments.paths (a : Arguments) (home : String) : Paths :=
  match a.base with
  | some base => ⟨base⟩
  | none => Paths.ofHome home

/-- What a run amounts to. -/
structure Outcome where
  exitCode : Nat
  /-- The description of the fault it failed with. -/
  failure : Option String
  /-- The first line of the log. -/
  log : LogLine
  scene : Scene

/-- A run up to where it waits for the interrupt, if it comes to that. -/
inductive Progress where
  | ended (outcome : Outcome)
  /-- It waits; the outcome is the one after the interrupt. -/
  | waiting (scene : Scene) (outcome : Outcome)

/-- The outcome in the end. -/
def Progress.outcome : Progress → Outcome
  | .ended outcome | .waiting _ outcome => outcome

/-- The outcome of what was done. -/
def Outcome.of (s : Surroundings) (filter : Option LogFilter) :
    Except RunFault Unit × Scene → Outcome
  | (result, scene) =>
    let log := match filter with
      | some filter => firstLine (.parse s.logForm) filter scene.notes
      | none => .nothing
    match result with
    | .ok () => ⟨0, none, log, scene⟩
    | .error fault => ⟨1, some fault.describe, log, scene⟩

/-- Runs a command. -/
def execute (s : Surroundings) (config : Config) (filter : LogFilter) (paths : Paths)
    (scene : Scene) : Command → Progress
  | .start =>
    match (start s config paths).run.run scene with
    | (.ok stage, scene) =>
      .waiting scene (.of s (some filter) ((stop paths stage).run.run scene))
    | (.error fault, scene) => .ended (.of s (some filter) (.error fault, scene))
  | .status => .ended (.of s (some filter) ((status paths).run.run scene))
  | .recover lower upper peers =>
    .ended (.of s (some filter) ((recover s config paths lower upper peers).run.run scene))

/-- The outcome of arguments that ask for no command. -/
def Refusal.outcome (r : Refusal) (files : Files) : Outcome :=
  match r with
  | .version => ⟨0, none, .nothing, ⟨files, versionLine ++ "\n", [], false⟩⟩
  | .help => ⟨0, none, .nothing, ⟨files, usage ++ "\n", [], false⟩⟩
  | .misuse => ⟨2, none, .nothing, ⟨files, "", [], false⟩⟩

/-- Runs the program over files, up to where it waits for the interrupt. -/
def progress (s : Surroundings) (args : List String) (files : Files) : Progress :=
  match Arguments.parse args with
  | .error refusal => .ended (refusal.outcome files)
  | .ok a =>
    let paths := a.paths s.home
    match (configure s a paths).run.run ⟨files, "", [], false⟩ with
    | (.error fault, scene) => .ended (.of s none (.error fault, scene))
    | (.ok (config, filter), scene) => execute s config filter paths scene a.command

/-- Runs the program over files. A daemon that waits for the interrupt is interrupted. -/
def run (s : Surroundings) (args : List String) (files : Files) : Outcome :=
  (progress s args files).outcome

end PeerRelay.Daemon
