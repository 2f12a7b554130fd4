import TableSnapshots.Json.Draft
import TableSnapshots.Json.ReadError
import TableSnapshots.Json.Value

/-!
# Taking values out of a draft

Readers walk over a draft from left to right and stop at the first thing that they cannot take. A
reader of a certain type reports a value of another kind as a mismatch; for that it takes out a
number or a text, whose own faults come first, and does not look into a list or a record.
-/

namespace TableSnapshots.Json

/-- The failure to read that a flaw is. -/
def Flaw.error : Flaw → ReadError
  | ended => .ended
  | malformed => .malformed

namespace Draft

/-- Fail at a break, if there is one. -/
def checkStop (stop : Option Break) : Except ReadError Unit :=
  match stop with
  | none => .ok ()
  | some b => .error b.read.error

/-! ## Any value -/

/-- How many levels of lists and records a text may have, and one more. -/
def depthLimit : Nat := 128

mutual

/-- Take out a value of any kind that has fewer than `depth` levels. -/
def toJson : (depth : Nat) → Draft → Except ReadError Json
  | _, .null => .ok .null
  | _, .bool b => .ok (.bool b)
  | _, .number n =>
    match n.number? with
    | none => .error .malformed
    | some (.integer i) => .ok (.integer i)
    | some (.decimal x) => .ok (.decimal x)
  | _, .text none => .error .malformed
  | _, .text (some s) => .ok (.text s)
  | depth, .list items stop =>
    if depth ≤ 1 then .error .malformed
    else do
      let vs ← toJsonItems (depth - 1) items
      checkStop stop
      return .list vs
  | depth, .record members stop =>
    if depth ≤ 1 then .error .malformed
    else do
      let ms ← toJsonMembers (depth - 1) members
      checkStop stop
      return ofMembers ms
  | _, .broken b => .error b.read.error

/-- Take out the items of a list. -/
def toJsonItems : (depth : Nat) → List Draft → Except ReadError (List Json)
  | _, [] => .ok []
  | depth, d :: ds => do
    let v ← toJson depth d
    let vs ← toJsonItems depth ds
    return v :: vs

/-- Take out the fields of a record. -/
def toJsonMembers :
    (depth : Nat) → List (Option String × Draft) → Except ReadError (List (String × Json))
  | _, [] => .ok []
  | _, (none, _) :: _ => .error .malformed
  | depth, (some k, d) :: ds => do
    let v ← toJson depth d
    let ms ← toJsonMembers depth ds
    return (k, v) :: ms

end

/-! ## No value -/

mutual

/-- Pass over a value, however deep it is. -/
def skip : Draft → Except ReadError Unit
  | .list items stop => do
    skipItems items
    match stop with
    | none => return ()
    | some b => throw b.skip.error
  | .record members stop => do
    skipMembers members
    match stop with
    | none => return ()
    | some b => throw b.skip.error
  | .broken b => .error b.skip.error
  | _ => .ok ()

/-- Pass over the items of a list. -/
def skipItems : List Draft → Except ReadError Unit
  | [] => .ok ()
  | d :: ds => do
    skip d
    skipItems ds

/-- Pass over the fields of a record. -/
def skipMembers : List (Option String × Draft) → Except ReadError Unit
  | [] => .ok ()
  | (_, d) :: ds => do
    skip d
    skipMembers ds

end

/-! ## Values of a certain kind -/

/-- A whole number as mismatches show it. -/
def showInteger (n : Int) : String :=
  "integer " ++ tick (Text.signedDecimal n)

/-- What a value is, as mismatches show it. -/
def show? : Draft → Except ReadError String
  | .null => .ok "null"
  | .bool b => .ok ("boolean " ++ tick (if b then "true" else "false"))
  | .number n =>
    match n.number? with
    | none => .error .malformed
    | some (.integer i) => .ok (showInteger i)
    | some (.decimal x) => .ok ("floating point " ++ tick (Decimal.floatText x))
  | .text none => .error .malformed
  | .text (some s) => .ok ("string " ++ Text.quoted s)
  | .list .. => .ok "sequence"
  | .record .. => .ok "map"
  | .broken b => .error b.read.error

/-- Fail because a value is of another kind than `expected`. -/
def refuse {α : Type} (expected : String) (d : Draft) : Except ReadError α := do
  let found ← d.show?
  throw (.mismatch (.wrongKind found expected))

/-- Take out a text. -/
def toText (expected : String) : Draft → Except ReadError String
  | .text (some s) => .ok s
  | d => d.refuse expected

/-- Take out a whole number that a word of `bits` bits can hold. -/
def toUnsigned (bits : Nat) (d : Draft) : Except ReadError Nat :=
  let expected := "u" ++ Text.decimal bits
  match d with
  | .number n =>
    match n.number? with
    | some (.integer i) =>
      if 0 ≤ i && i.toNat < wordCount bits then .ok i.toNat
      else .error (.mismatch (.wrongValue (showInteger i) expected))
    | _ => d.refuse expected
  | d => d.refuse expected

end Draft

/-- Read a whole text: nothing but spaces may follow the value. -/
def Document.read {α : Type} (reader : Draft → Except ReadError α) (doc : Document) :
    Except ReadError α := do
  let a ← reader doc.body
  if doc.more then throw .malformed else return a

/-- Read a text as JSON. -/
def parse (s : String) : Except ReadError Json :=
  (Document.ofText s).read (Draft.toJson Draft.depthLimit)

end TableSnapshots.Json
