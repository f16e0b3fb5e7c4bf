/-!
# Paths

Where an instance keeps its files: a configuration, a database and the process number of a running
daemon, all below one base directory.
-/

namespace PeerRelay.Settings

/-- The path of a name below a base; a slash at the end of the base is not repeated. -/
def below (base name : String) : String :=
  if base.isEmpty ∨ base.endsWith "/" then base ++ name else base ++ "/" ++ name

/-- The home directory of the account that runs the program. -/
def accountHome : String := "/root"

/-- The paths of an instance. -/
structure Paths where
  base : String
deriving DecidableEq, Repr

namespace Paths

/-- The paths below a home directory; the one of the account stands in for an empty one. -/
def ofHome (home : String) : Paths :=
  ⟨below (if home.isEmpty then accountHome else home) ".replication"⟩

/-- The configuration. -/
def config (p : Paths) : String := below p.base "config.json"

/-- The database of outstanding messages. -/
def database (p : Paths) : String := below p.base "replication.sqlite"

/-- The process number of a running daemon. -/
def pid (p : Paths) : String := below p.base "daemon.pid"

end Paths

end PeerRelay.Settings
