import TableSnapshots.Controller.Basic
import TableSnapshots.Part.Basic

/-!
# What the engine knows of its tables

Databases, tables, partitions, and where a table lies. Each operation sends one query.
-/

namespace TableSnapshots.Controller

variable {m : Type → Type} [Monad m]

/-- Send a query and take the values of one column. -/
def askColumn (c : Controller m) (query column : String) : Op m (List String) := do
  let reply ← c.ask query
  ofAnswer (reply.column column)

/-- Send a query and take the text of the answer. -/
def askText (c : Controller m) (query : String) : Op m String := do
  let reply ← c.ask query
  ofAnswer reply.toText

/-- The databases that are not excluded. -/
def listDatabases (c : Controller m) (exclude : List String) : Op m (List String) := do
  let names ← c.askColumn Query.showDatabases "name"
  return names.filter fun name => !exclude.contains name

/-- The tables of a database, in no certain order. -/
def listTables (c : Controller m) (db : String) : Op m (List String) :=
  c.askColumn (Query.showTables db) "name"

/-- The number that the engine counted. -/
def readCount (text : String) : Except GatewayError Nat :=
  match Text.readUnsigned? 64 text.toList with
  | some n => .ok n
  | none => .error (.unexpected ("expected a count, got " ++ Text.quoted text))

/-- Whether there is a table of this name. -/
def tableExists (c : Controller m) (db table : String) : Op m Bool := do
  let text ← c.askText (Query.checkTable db table)
  let count ← ofAnswer (readCount text)
  return count > 0

/-- The statement that creates a database. -/
def databaseSchema (c : Controller m) (db : String) : Op m String :=
  c.askText (Query.showCreateDatabase db)

/-- The statement that creates a table. -/
def tableSchema (c : Controller m) (db table : String) : Op m String :=
  c.askText (Query.showCreateTable db table)

/-- The tables of the MergeTree family, the one changed longest ago first: those named, or all if
none is. -/
def tablesOrdered (c : Controller m) (db : String) (tables : List String) : Op m (List String) :=
  c.askColumn (Query.tablesOrdered db tables) "name"

/-- The active partitions of a table. -/
def partitions (c : Controller m) (db table : String) : Op m (List Partition) := do
  let names ← c.askColumn (Query.tablePartitions db table) "partition"
  return names.map fun name => { database := db, table, name }

/-- The directory of a table. -/
def tableDataPath (c : Controller m) (db table : String) : Op m Path := do
  let text ← c.askText (Query.tableDataPath db table)
  if text = "" then
    ofAnswer (.error (.unexpected ("no data path for " ++ db ++ "." ++ table)))
  else return ⟨text⟩

end TableSnapshots.Controller
