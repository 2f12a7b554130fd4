import TableSnapshots.Config
import TableSnapshots.Error
import TableSnapshots.Files

/-!
# Loading a configuration

A configuration is kept in a file of JSON text.
-/

namespace TableSnapshots

/-- Why a configuration could not be loaded. -/
inductive ConfigError where
  /-- The file could not be read. -/
  | file (path : Path) (fault : Fault)
  /-- The text is not a configuration. -/
  | parse (error : Json.ReadError)
  deriving Repr

/-- The text of a failure to load. -/
def ConfigError.message : ConfigError → String
  | file path fault => "Failed to read config " ++ path.quoted ++ ": " ++ fault.message
  | parse error => "Invalid config: " ++ error.message

/-- Load a configuration from a file. -/
def Config.load {m : Type → Type} [Monad m] (files : Files m) (path : Path) :
    m (Except ConfigError Config) := do
  match ← files.readFile path with
  | .error fault => return .error (.file path fault)
  | .ok bytes =>
    match String.fromUTF8? bytes with
    | none => return .error (.file path .notText)
    | some text => return (Config.ofText text).mapError .parse

end TableSnapshots
