import TableSnapshots.CommandLine.Arguments
import TableSnapshots.Path.Basic

/-!
# Invocations

What the command line asks for: the file with the configuration, and one command.
-/

namespace TableSnapshots.CommandLine

/-- A command. -/
inductive Command where
  /-- Print the engine's version and how it freezes tables. -/
  | version
  /-- List the databases that are not excluded. -/
  | databases (exclude : List String)
  /-- List the tables of a database, perhaps in order, or as the statements that create them. -/
  | tables (database : String) (ordered schema : Bool)
  /-- List the active partitions of a table. -/
  | partitions (database table : String)
  /-- Freeze a table and print its parts. -/
  | freeze (database table : String)
  /-- Attach a part, perhaps after giving the detached parts to the configured owner. -/
  | attach (database table part : String) (chown : Bool)
  /-- Remove a directory of frozen data, or all of it. -/
  | remove (path : Option Path)
  deriving DecidableEq, Repr

/-- What the command line asks for. -/
structure Invocation where
  config : Path
  command : Command
  deriving DecidableEq, Repr

/-- Whether a text names a path. -/
def isPath (s : String) : Bool :=
  s ≠ ""

/-- Any text. -/
def isText (_ : String) : Bool :=
  true

/-- Where the configuration is, if the command line does not say so. -/
def standardConfig : String :=
  "/etc/freezer/config.json"

/-- The names of the commands, and the one that explains them. -/
def commandNames : List String :=
  ["version", "databases", "tables", "partitions", "freeze", "attach", "remove", "help"]

/-- What comes before the command: the configuration, and how much is logged and where to. -/
def outer : Grammar where
  options := [
    { long := "config", letter := some 'c', arity := .value, accepts := isPath },
    { long := "color", aliases := ["colour"], arity := .value
      accepts := ["auto", "always", "never"].contains },
    { long := "verbose", letter := some 'v', arity := .count },
    { long := "log-file", arity := .optional, accepts := isPath },
    { long := "log-timeless", arity := .switch }]
  positionals := []
  subcommands := commandNames

/-- What comes after a command. -/
def inner (name : String) : Grammar :=
  match name with
  | "databases" =>
    { options := [{ long := "exclude", letter := some 'x', arity := .values }], positionals := [] }
  | "tables" =>
    { options := [{ long := "ordered", arity := .switch }, { long := "schema", arity := .switch }]
      positionals := [isText] }
  | "partitions" | "freeze" => { options := [], positionals := [isText, isText] }
  | "attach" =>
    { options := [{ long := "chown", arity := .switch }], positionals := [isText, isText, isText] }
  | "remove" => { options := [{ long := "all", arity := .switch }], positionals := [isPath] }
  | _ => { options := [], positionals := [] }

/-- The command of its name and arguments. -/
def Command.ofMatches (name : String) (m : Matches) : Except UsageError Command :=
  match name, m.positionals with
  | "version", _ => .ok .version
  | "databases", _ => .ok (.databases (m.valuesOf "exclude"))
  | "tables", [db] => .ok (.tables db (m.has "ordered") (m.has "schema"))
  | "partitions", [db, table] => .ok (.partitions db table)
  | "freeze", [db, table] => .ok (.freeze db table)
  | "attach", [db, table, part] => .ok (.attach db table part (m.has "chown"))
  | "remove", [path] =>
    if m.has "all" then .error .argumentConflict else .ok (.remove (some ⟨path⟩))
  | "remove", [] => if m.has "all" then .ok (.remove none) else .error .missingRequiredArgument
  | _, _ => .error .missingRequiredArgument

/-- Explain a command, if there is such a command. -/
def explain : List String → UsageError
  | name :: _ => if commandNames.contains name then .displayHelp else .invalidSubcommand
  | [] => .displayHelp

/-- Read a command line. -/
def Invocation.ofArguments (args : List String) : Except UsageError Invocation := do
  let m ← outer.read args
  match m.subcommand with
  | none => throw (if m.options.isEmpty then .nothingGiven else .missingSubcommand)
  | some ("help", rest) => throw (explain rest)
  | some (name, rest) =>
    let command ← Command.ofMatches name (← (inner name).read rest)
    return { config := ⟨(m.valuesOf "config").head?.getD standardConfig⟩, command }

end TableSnapshots.CommandLine
