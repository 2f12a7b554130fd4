import TableSnapshots.Fault
import TableSnapshots.Gateway.Error
import TableSnapshots.Path.Basic
import TableSnapshots.Text.Quoted

/-!
# Errors

Why an operation on snapshots did not do what it was asked.
-/

namespace TableSnapshots

/-- The text of a path in messages. -/
def Path.quoted (p : Path) : String :=
  Text.quoted p.text

/-- Why an operation on snapshots failed. -/
inductive Error where
  /-- A query failed. -/
  | gateway (error : GatewayError)
  /-- The path does not lie below the directory that the operation is confined to. -/
  | pathViolation (path root : Path)
  /-- A directory could not be removed in this many attempts. -/
  | teardown (path : Path) (attempts : Nat) (fault : Fault)
  /-- The counter of freezes could not be read. -/
  | generation (path : Path) (fault : Fault)
  /-- Another file operation failed at this path. -/
  | file (path : Path) (fault : Fault)
  /-- The text is not an engine version. -/
  | invalidVersion (text : String)
  deriving Repr

namespace Error

/-- The text of an error. -/
def message : Error → String
  | gateway error => "Query failed: " ++ error.message
  | pathViolation path root =>
    "Refusing to operate on " ++ path.quoted ++ ": not within " ++ root.quoted
  | teardown path attempts fault =>
    "Failed to remove " ++ path.quoted ++ " after " ++ Text.decimal attempts ++ " attempt(s): "
      ++ fault.message
  | generation path fault =>
    "Failed to read freeze generation from " ++ path.quoted ++ ": " ++ fault.message
  | file path fault => "I/O error at " ++ path.quoted ++ ": " ++ fault.message
  | invalidVersion text => "Invalid engine version: " ++ Text.quoted text

end Error

end TableSnapshots
