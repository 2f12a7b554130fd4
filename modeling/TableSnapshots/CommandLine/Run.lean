import TableSnapshots.CommandLine.Invocation
import TableSnapshots.Config.Load
import TableSnapshots.Controller.Freeze
import TableSnapshots.Controller.Restore
import TableSnapshots.Controller.Teardown

/-!
# Running commands

What each command does with a controller, and what it prints. Results are printed; what was done is
reported beside them. Nothing is printed of a freeze that failed. A part that is to be attached and
is not there is only warned of, since it is the engine that looks for it.
-/

namespace TableSnapshots.CommandLine

/-- Where lines are written. -/
structure Console (m : Type → Type) where
  /-- Write a line of the result. -/
  print : String → m Unit
  /-- Write a line about what was done. -/
  report : String → m Unit
  /-- Write a line to the log. -/
  warn : String → m Unit

/-- Why a command failed. -/
inductive Failure where
  | usage (error : UsageError)
  | config (error : ConfigError)
  | operation (error : Error)
  /-- The table that the command is about does not exist. -/
  | noTable (database table : String)
  deriving Repr

/-- The text of a failure. -/
def Failure.message : Failure → String
  | usage error => error.name
  | config error => error.message
  | operation error => error.message
  | noTable database table => "table " ++ database ++ "." ++ table ++ " does not exist"

variable {m : Type → Type} [Monad m] {α : Type}

/-- Fail as an operation does. -/
def perform (op : Controller.Op m α) : ExceptT Failure m α :=
  ExceptT.mk do return (← op.run).mapError .operation

/-- Print some lines. -/
def printAll (console : Console m) : List String → ExceptT Failure m Unit
  | [] => return ()
  | line :: lines => do
    ExceptT.lift (console.print line)
    printAll console lines

/-- Print the statements that create some tables, each as soon as it is known. -/
def printSchemas (console : Console m) (c : Controller m) (database : String) :
    List String → ExceptT Failure m Unit
  | [] => return ()
  | table :: tables => do
    let statement ← perform (c.tableSchema database table)
    ExceptT.lift (console.print (statement ++ ";"))
    printSchemas console c database tables

/-- The line about a table that was frozen. -/
def frozenLine (database table : String) (parts : List FrozenPart) : String :=
  "Froze " ++ database ++ "." ++ table ++ ": " ++ Text.decimal parts.length ++ " parts, "
    ++ Text.decimal (parts.foldr (·.size + ·) 0) ++ " bytes"

/-- Warn of a part that is not where it has to be put. -/
def warnIfAbsent (console : Console m) (c : Controller m) (path : Path) :
    ExceptT Failure m Unit := do
  if ← ExceptT.lift (c.host.isPresent path) then return ()
  else ExceptT.lift (console.warn ("Part is not in the detached directory: " ++ path.quoted))

/-- Run a command. -/
def Command.run (console : Console m) (c : Controller m) : Command → ExceptT Failure m Unit
  | version => ExceptT.lift (console.print (c.version.text ++ " (" ++ c.strategy.name ++ ")"))
  | databases exclude => do
    printAll console (← perform (c.listDatabases exclude))
  | tables database ordered schema => do
    let names ← perform <|
      if ordered then c.tablesOrdered database [] else c.listTables database
    if schema then printSchemas console c database names else printAll console names
  | partitions database table => do
    if ← perform (c.tableExists database table) then
      let found ← perform (c.partitions database table)
      printAll console (found.map (·.name))
    else throw (.noTable database table)
  | freeze database table => do
    let parts ← perform (c.freezeTable database table)
    printAll console (parts.map (·.toLine))
    ExceptT.lift (console.report (frozenLine database table parts))
  | attach database table part chown => do
    let path ← perform (c.detachedPartPath database table part)
    warnIfAbsent console c path
    if chown then perform (c.chownDetached database table)
    perform (c.attachPart database table part)
    ExceptT.lift (console.report ("Attached " ++ part ++ " to " ++ database ++ "." ++ table))
  | remove (some path) => do
    perform (c.removeSnapshotPath path)
    ExceptT.lift (console.report ("Removed " ++ path.quoted))
  | remove none => do
    perform c.removeAllSnapshots
    ExceptT.lift (console.report ("Removed " ++ c.shadowRoot.root.quoted))

/-- Load the configuration, reach the engine and run the command. The host depends on the
configuration, which says where the engine is. -/
def Invocation.run (files : Files m) (hostOf : ClientConfig → Host m) (console : Console m)
    (i : Invocation) : ExceptT Failure m Unit := do
  let config ← ExceptT.mk do return (← Config.load files i.config).mapError .config
  let c ← perform (Controller.connect (hostOf config.client) config)
  i.command.run console c

/-- Run a command line. -/
def run (files : Files m) (hostOf : ClientConfig → Host m) (console : Console m)
    (args : List String) : ExceptT Failure m Unit := do
  let i ← ExceptT.mk (pure ((Invocation.ofArguments args).mapError .usage))
  i.run files hostOf console

end TableSnapshots.CommandLine
