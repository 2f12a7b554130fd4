import TableSnapshots.Json.Layout
import TableSnapshots.Path.Basic

/-!
# Parts and partitions

A frozen part is a copy of one data part of a table, made by a freeze. It is written as one line of
JSON, which can be read back.
-/

namespace TableSnapshots

/-- A partition of a table. -/
structure Partition where
  database : String
  table : String
  /-- The partition expression, such as `202301` or `'2023-01-01'`. -/
  name : String
  deriving DecidableEq, Repr

/-- A frozen copy of one data part. -/
structure FrozenPart where
  database : String
  table : String
  /-- The part's name in the engine, such as `202301_1_4_1`. -/
  name : String
  path : Path
  /-- The fingerprint of the part's manifest. -/
  checksum : String
  /-- The bytes of the files right in the part's directory. -/
  size : Nat
  deriving DecidableEq, Repr

namespace FrozenPart

open Json (Draft Field Layout ReadError)

/-- The fields of a frozen part, in the order in which they are written. -/
def members (p : FrozenPart) : List (String × Json) :=
  [("database", .text p.database), ("table", .text p.table), ("name", .text p.name),
    ("path", .text p.path.text), ("checksum", .text p.checksum), ("size", .integer p.size)]

/-- The line of JSON of a frozen part. -/
def toLine (p : FrozenPart) : String :=
  (Json.record p.members).compact

/-- The fields of a frozen part that were given. -/
structure Given where
  database : Option String := none
  table : Option String := none
  name : Option String := none
  path : Option String := none
  checksum : Option String := none
  size : Option Nat := none

/-- A field that must be given. -/
def require {α : Type} (name : String) : Option α → Except ReadError α
  | some a => .ok a
  | none => .error (.mismatch (.missingField name))

/-- The fields of a frozen part. Other fields are passed over, so that lines of a later version can
still be read. -/
def layout : Layout Given FrozenPart where
  title := "struct FrozenPart"
  fields := [
    { name := "database", present := fun g => g.database.isSome, optional := false
      take := fun d g => do return { g with database := some (← d.toText "a string") } },
    { name := "table", present := fun g => g.table.isSome, optional := false
      take := fun d g => do return { g with table := some (← d.toText "a string") } },
    { name := "name", present := fun g => g.name.isSome, optional := false
      take := fun d g => do return { g with name := some (← d.toText "a string") } },
    { name := "path", present := fun g => g.path.isSome, optional := false
      take := fun d g => do return { g with path := some (← d.toText "path string") } },
    { name := "checksum", present := fun g => g.checksum.isSome, optional := false
      take := fun d g => do return { g with checksum := some (← d.toText "a string") } },
    { name := "size", present := fun g => g.size.isSome, optional := false
      take := fun d g => do return { g with size := some (← d.toUnsigned 64) } }]
  strict := false
  empty := {}
  build := fun g => do
    let database ← require "database" g.database
    let table ← require "table" g.table
    let name ← require "name" g.name
    let path ← require "path" g.path
    let checksum ← require "checksum" g.checksum
    let size ← require "size" g.size
    return { database, table, name, path := ⟨path⟩, checksum, size }

/-- Read a frozen part from a line of JSON. -/
def ofLine (s : String) : Except ReadError FrozenPart :=
  (Json.Document.ofText s).read layout.read

end FrozenPart

end TableSnapshots
