import TableSnapshots.Controller.Basic
import TableSnapshots.Part.Basic

/-!
# Teardown

Frozen data is removed below `shadow` only. A directory that is already gone counts as removed,
and a removal that fails because something is busy is tried again.
-/

namespace TableSnapshots.Controller

variable {m : Type → Type} [Monad m]

/-- One attempt to remove a directory. -/
def removeOnce (c : Controller m) (path : Path) : m (Except Fault Unit) := do
  match ← c.host.removeAll path with
  | .ok () => return .ok ()
  | .error fault => return if fault.kind = .notFound then .ok () else .error fault

/-- Remove a directory below the shadow directory. -/
def removeSnapshotPath (c : Controller m) (path : Path) : Op m Unit := do
  let path ← ofExcept (c.shadowRoot.check path)
  match ← ExceptT.lift (c.retry.run (c.removeOnce path) c.host.wait) with
  | .ok () => return ()
  | .error failure => throw (.teardown path failure.attempts failure.fault)

/-- Remove one frozen part. -/
def removeSnapshot (c : Controller m) (part : FrozenPart) : Op m Unit :=
  c.removeSnapshotPath part.path

/-- Remove the whole shadow directory. -/
def removeAllSnapshots (c : Controller m) : Op m Unit :=
  c.removeSnapshotPath c.shadowRoot.root

end TableSnapshots.Controller
