import TableSnapshots.Controller.Metadata

/-!
# Restoring

A part that is to be restored is put into the table's detached directory, given to the engine's user
and attached.
-/

namespace TableSnapshots.Controller

variable {m : Type → Type} [Monad m]

/-- The name of the directory of a table's detached parts. -/
def detachedName : String := "detached"

/-- Attach a part from the table's detached directory. -/
def attachPart (c : Controller m) (db table part : String) : Op m Unit := do
  let _ ← c.ask (Query.attachPart db table part)

/-- The directory of a table's detached parts. -/
def detachedDirectory (c : Controller m) (db table : String) : Op m Path := do
  let path ← c.tableDataPath db table
  return path.entry detachedName

/-- Where a part has to be put before it can be attached. -/
def detachedPartPath (c : Controller m) (db table part : String) : Op m Path := do
  let dir ← c.detachedDirectory db table
  return dir.entry part

/-- Give the detached parts of a table to the configured user and group. -/
def chownDetached (c : Controller m) (db table : String) : Op m Unit := do
  let dir ← c.detachedDirectory db table
  let path ← ofExcept (c.dataRoot.check dir)
  match ← ExceptT.lift (c.host.changeOwnership path c.user c.group) with
  | .error fault => throw (.file path fault)
  | .ok () => return ()

/-- Execute a statement that creates a database or a table. -/
def restoreMetadata (c : Controller m) (statement : String) : Op m Unit := do
  let _ ← c.ask statement

end TableSnapshots.Controller
