import TableSnapshots.Controller.Metadata
import TableSnapshots.Part.Enumerate
import TableSnapshots.Text.Blank

/-!
# Freezing

A freeze makes the engine copy the parts of a table below `shadow`, in a directory whose name is a
counter that goes up with every freeze, and at the place that the table has below the engine's
directory. The counter is read right after the freeze, since other freezes move it on.
-/

namespace TableSnapshots.Controller

variable {m : Type → Type} [Monad m]

/-- The name of the file with the counter. -/
def incrementName : String := "increment.txt"

/-- The file with the counter. -/
def incrementPath (c : Controller m) : Path :=
  c.shadowRoot.root.entry incrementName

/-- The number in the bytes of the counter's file. -/
def readGeneration (bytes : ByteArray) : Except Fault Nat :=
  match String.fromUTF8? bytes with
  | none => .error .notText
  | some text =>
    match Text.readUnsigned? 64 (Text.trimChars text.toList) with
    | some n => .ok n
    | none =>
      .error (.described .invalidData
        ("not a generation number: " ++ Text.quoted (Text.trim text)))

/-- The counter, which is the name of the directory of the latest freeze. -/
def generation (c : Controller m) : Op m Nat := do
  match ← ExceptT.lift (c.host.readFile c.incrementPath) with
  | .error fault => throw (.generation c.incrementPath fault)
  | .ok bytes =>
    match readGeneration bytes with
    | .error fault => throw (.generation c.incrementPath fault)
    | .ok n => return n

/-- The directory of a table's parts in the freeze of this number. -/
def frozenPath (c : Controller m) (generation : Nat) (relative : Path) : Path :=
  (c.shadowRoot.root.entry (Text.decimal generation)).join relative

/-- The parts of the latest freeze of a table. -/
def collectParts (c : Controller m) (db table : String) (relative : Path) :
    Op m (List FrozenPart) := do
  let generation ← c.generation
  let dir := c.frozenPath generation relative
  match ← ExceptT.lift (FrozenPart.enumerate c.host.toFiles dir db table) with
  | .error fault => throw (.file dir fault)
  | .ok parts => return parts

/-- Where a table lies below the engine's directory. It must lie below it, and not be it. -/
def relativePath (c : Controller m) (path : Path) : Except Error Path := do
  let path ← c.root.check path
  match path.stripPrefix? c.root.root with
  | none => throw (.pathViolation path c.root.root)
  | some relative =>
    if relative.text = "" then throw (.pathViolation path c.root.root) else return relative

/-- Freeze some partitions of a table one after the other and collect the parts of each. The first
failure ends it. -/
def freezePartitions (c : Controller m) (db table : String) (relative : Path) :
    List Partition → Op m (List FrozenPart)
  | [] => return []
  | p :: ps => do
    let _ ← c.ask (Query.freezePartition db table p.name)
    let parts ← c.collectParts db table relative
    let rest ← freezePartitions c db table relative ps
    return parts ++ rest

/-- Freeze a table, as the engine's version allows, and find the parts that this made. -/
def freezeTable (c : Controller m) (db table : String) : Op m (List FrozenPart) := do
  let path ← c.tableDataPath db table
  let relative ← ofExcept (c.relativePath path)
  match c.strategy with
  | .wholeTable =>
    let _ ← c.ask (Query.freezeTable db table)
    c.collectParts db table relative
  | .perPartition =>
    let ps ← c.partitions db table
    c.freezePartitions db table relative ps

end TableSnapshots.Controller
