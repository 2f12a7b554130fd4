import TableSnapshots.Error
import TableSnapshots.Text.Blank
import TableSnapshots.Text.Pieces

/-!
# Engine versions

Engines report versions such as `21.8.3.44` or `19.1.6-testing`. They are compared number by number,
a missing number counting as zero, so that `18.16` and `18.16.0` are the same version. The version
decides how a table is frozen.
-/

namespace TableSnapshots

/-- A version: its numbers, and the text that the engine gave. -/
structure EngineVersion where
  components : List Nat
  text : String
  deriving Repr

namespace EngineVersion

/-- The numbers at the start of the pieces between the dots. Reading stops at the first piece that
does not start with a digit, and after the first one that goes on after its digits. There is no
result if a number does not fit into 64 bits. -/
def readNumbers? : List (List Char) → Option (List Nat)
  | [] => some []
  | piece :: rest =>
    let digits := piece.takeWhile Text.isDigit
    if digits.isEmpty then some []
    else do
      let n ← Text.readDigits? 64 digits
      if digits.length = piece.length then
        let ns ← readNumbers? rest
        return n :: ns
      else return [n]

/-- Read a version, ignoring blanks around it. It must start with a number. -/
def parse (s : String) : Except Error EngineVersion :=
  match readNumbers? (Text.pieces '.' (Text.trimChars s.toList)) with
  | none | some [] => .error (.invalidVersion s)
  | some numbers => .ok { components := numbers, text := Text.trim s }

/-- Compare two lists of numbers, the first ones first, as if the shorter list went on with
zeros. -/
def compareNumbers : List Nat → List Nat → Ordering
  | [], [] => .eq
  | a :: as, [] => (compare a 0).then (compareNumbers as [])
  | [], b :: bs => (compare 0 b).then (compareNumbers [] bs)
  | a :: as, b :: bs => (compare a b).then (compareNumbers as bs)

instance : Ord EngineVersion where
  compare a b := compareNumbers a.components b.components

instance : BEq EngineVersion where
  beq a b := compare a b == .eq

instance : LT EngineVersion where
  lt a b := compare a b = .lt

instance : LE EngineVersion where
  le a b := compare a b ≠ .gt

instance (a b : EngineVersion) : Decidable (a < b) :=
  inferInstanceAs (Decidable (compare a b = .lt))

instance (a b : EngineVersion) : Decidable (a ≤ b) :=
  inferInstanceAs (Decidable (compare a b ≠ .gt))

end EngineVersion

/-- How a table is frozen. -/
inductive FreezeStrategy where
  /-- One statement freezes the whole table. -/
  | wholeTable
  /-- One statement for each active partition, on engines that know no other way. -/
  | perPartition
  deriving DecidableEq, Repr

namespace FreezeStrategy

/-- The first version that freezes a whole table. -/
def wholeTableSince : EngineVersion where
  components := [18, 16, 0]
  text := "18.16.0"

/-- The strategy for an engine of this version. -/
def ofVersion (v : EngineVersion) : FreezeStrategy :=
  if wholeTableSince ≤ v then wholeTable else perPartition

/-- The strategy for an engine that gives this text as its version. -/
def ofText (s : String) : Except Error FreezeStrategy :=
  (EngineVersion.parse s).map ofVersion

/-- The name of a strategy. -/
def name : FreezeStrategy → String
  | wholeTable => "WholeTable"
  | perPartition => "PerPartition"

end FreezeStrategy

end TableSnapshots
