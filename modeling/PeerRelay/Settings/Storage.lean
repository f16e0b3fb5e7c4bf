import PeerRelay.Files
import PeerRelay.Settings.Config
import PeerRelay.Settings.Paths
import PeerRelay.Text.Utf8

/-!
# The stored configuration

The configuration is a document in a file of its own; where there is none, the default holds. The
log level of the environment goes over the one of the document, and is not written back unless the
configuration is saved.
-/

namespace PeerRelay.Settings

/-- Why a configuration was not read or written. -/
inductive StorageFault where
  /-- The file could not be used, or is no text. -/
  | file
  | document (problem : Json.Problem)

/-- The configuration in a text. -/
def Config.ofText (text : String) : Except StorageFault Config :=
  (Json.decodeText Config.decodeJson text).mapError .document

namespace Config

/-- The configuration in the file at a path. -/
def readAt (f : Files) (path : String) : Except StorageFault Config :=
  match f.get? path with
  | some (.file content) =>
    match Text.ofUtf8? content with
    | some text => ofText text
    | none => .error .file
  | _ => .error .file

/-- The configuration that holds, with the log level of the environment. -/
def load (f : Files) (paths : Paths) (level : Option String) : Except StorageFault Config := do
  let c ← if (f.get? paths.config).isSome then readAt f paths.config else pure {}
  return c.overrideLogLevel level

/-- The text in which a configuration is saved. -/
def saved (c : Config) : String :=
  c.toJson.pretty

/-- Saves a configuration. -/
def save? (c : Config) (f : Files) (paths : Paths) : Option Files := do
  let f ← f.createAll? paths.base
  f.put? paths.config (.file (Text.utf8 c.saved))

end Config

end PeerRelay.Settings
