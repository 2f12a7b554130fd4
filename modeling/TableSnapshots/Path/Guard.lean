import TableSnapshots.Error

/-!
# Guarded paths

A guard confines operations that change files to one directory. It looks at the text of a path only:
the components of the directory must come first, and no component may be `..`. A path that the guard
refuses is never handed to the file system.
-/

namespace TableSnapshots

/-- Confines operations to the directory `root` and what lies below it. -/
structure PathGuard where
  root : Path
  deriving DecidableEq, Repr

namespace PathGuard

/-- Whether a path is the guarded directory or lies below it, and stays there. -/
def accepts (g : PathGuard) (p : Path) : Bool :=
  !p.components.contains .up && p.startsWith g.root

/-- The path itself, if the guard accepts it. -/
def check (g : PathGuard) (p : Path) : Except Error Path :=
  if g.accepts p then .ok p else .error (.pathViolation p g.root)

end PathGuard

end TableSnapshots
