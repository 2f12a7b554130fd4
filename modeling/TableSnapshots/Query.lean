/-!
# Statements

The statements that are sent to the engine. A name that is an identifier is written between
backticks and a text value between single quotes; in both, a backslash stands before the quote and
before a backslash. A partition expression is the engine's own text and is written as it is.
-/

namespace TableSnapshots.Query

/-- The characters of a quoted text between its quotes. -/
def escape (quote : Char) (cs : List Char) : List Char :=
  cs.flatMap fun c => if c = '\\' || c = quote then ['\\', c] else [c]

/-- A text between quotes. -/
def enclose (quote : Char) (s : String) : String :=
  String.ofList (quote :: escape quote s.toList ++ [quote])

/-- An identifier. -/
def ident (s : String) : String :=
  enclose '\x60' s

/-- A text value. -/
def literal (s : String) : String :=
  enclose '\'' s

/-- Ask for the version. -/
def version : String :=
  "SELECT version() FORMAT TSVRaw"

/-- Ask for the names of the databases. -/
def showDatabases : String :=
  "SHOW DATABASES FORMAT JSON"

/-- Ask for the names of the tables of a database. -/
def showTables (db : String) : String :=
  "SHOW TABLES FROM " ++ ident db ++ " FORMAT JSON"

/-- Ask how many tables have this name. -/
def checkTable (db table : String) : String :=
  "SELECT countIf(database = " ++ literal db ++ " AND name = " ++ literal table
    ++ ") FROM system.tables FORMAT TSVRaw"

/-- Ask for the statement that creates a database. -/
def showCreateDatabase (db : String) : String :=
  "SHOW CREATE DATABASE " ++ ident db ++ " FORMAT TSVRaw"

/-- Ask for the statement that creates a table. -/
def showCreateTable (db table : String) : String :=
  "SHOW CREATE TABLE " ++ ident db ++ "." ++ ident table ++ " FORMAT TSVRaw"

/-- Ask for the tables of the MergeTree family in a database, the one changed longest ago first:
those named, or all of them if none is named. -/
def tablesOrdered (db : String) (tables : List String) : String :=
  let names := ",".intercalate (tables.map literal)
  "SELECT name FROM system.tables WHERE engine like '%MergeTree%' AND database = " ++ literal db
    ++ " AND (empty([" ++ names ++ "]) OR has(cast([" ++ names
    ++ "], 'Array(String)'), name)) ORDER BY metadata_modification_time FORMAT JSON"

/-- Ask for the active partitions of a table. -/
def tablePartitions (db table : String) : String :=
  "SELECT DISTINCT partition FROM system.parts WHERE active AND database = " ++ literal db
    ++ " AND table = " ++ literal table ++ " FORMAT JSON"

/-- Ask for the directory of a table. -/
def tableDataPath (db table : String) : String :=
  "SELECT data_path FROM system.tables WHERE database = " ++ literal db ++ " AND name = "
    ++ literal table ++ " FORMAT TSVRaw"

/-- Freeze a table. -/
def freezeTable (db table : String) : String :=
  "ALTER TABLE " ++ ident db ++ "." ++ ident table ++ " FREEZE"

/-- Freeze one partition of a table. -/
def freezePartition (db table partition : String) : String :=
  "ALTER TABLE " ++ ident db ++ "." ++ ident table ++ " FREEZE PARTITION " ++ partition

/-- Attach a part that lies in the table's detached directory. -/
def attachPart (db table part : String) : String :=
  "ALTER TABLE " ++ ident db ++ "." ++ ident table ++ " ATTACH PART " ++ literal part

end TableSnapshots.Query
