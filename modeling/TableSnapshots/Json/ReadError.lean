import TableSnapshots.Text.Digits
import TableSnapshots.Text.Quoted

/-!
# Failures to read JSON

A text fails to be read as a value of some type for one of three reasons: it breaks the grammar, it
ends too early, or it is JSON of the wrong shape.
-/

namespace TableSnapshots.Json

/-- How a JSON value differs from what a reader asks for. -/
inductive Mismatch where
  /-- A record has a field that its type does not have. -/
  | unknownField (name : String) (known : List String)
  /-- A field is given twice. -/
  | duplicateField (name : String)
  /-- A field is not given and has no default. -/
  | missingField (name : String)
  /-- The value is of another kind. -/
  | wrongKind (found expected : String)
  /-- The value is of the right kind and out of range. -/
  | wrongValue (found expected : String)
  /-- A list ends before a field that has no default. -/
  | tooShort (length : Nat) (expected : String)
  deriving DecidableEq, Repr

/-- A name as mismatches show it. -/
def tick (s : String) : String :=
  "`" ++ s ++ "`"

/-- A choice between names, as mismatches show it. -/
def oneOf (names : List String) : String :=
  match names with
  | [] => "there are no fields"
  | [a] => "expected " ++ tick a
  | [a, b] => "expected " ++ tick a ++ " or " ++ tick b
  | names => "expected one of " ++ ", ".intercalate (names.map tick)

/-- The text of a mismatch. -/
def Mismatch.message : Mismatch → String
  | unknownField name known => "unknown field " ++ tick name ++ ", " ++ oneOf known
  | duplicateField name => "duplicate field " ++ tick name
  | missingField name => "missing field " ++ tick name
  | wrongKind found expected => "invalid type: " ++ found ++ ", expected " ++ expected
  | wrongValue found expected => "invalid value: " ++ found ++ ", expected " ++ expected
  | tooShort length expected =>
    "invalid length " ++ Text.decimal length ++ ", expected " ++ expected

/-- Why a text could not be read. -/
inductive ReadError where
  /-- The text breaks the grammar, or goes beyond what numbers and nesting may be. -/
  | malformed
  /-- The text ends too early. -/
  | ended
  /-- The text is JSON of the wrong shape. -/
  | mismatch (what : Mismatch)
  deriving DecidableEq, Repr

/-- The text of a failure. -/
def ReadError.message : ReadError → String
  | malformed => "not JSON"
  | ended => "the JSON text ends too early"
  | mismatch what => what.message

end TableSnapshots.Json
