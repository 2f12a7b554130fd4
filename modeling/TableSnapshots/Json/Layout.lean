import TableSnapshots.Json.Read

/-!
# Records of a known layout

A layout says which fields a record type has. Its values may be given as a record, with the fields
in any order and each at most once, or as a list of the fields in the order of the layout, which
may stop early where the fields left have defaults.
-/

namespace TableSnapshots.Json

/-- A field of a record type whose values are collected in `σ`. -/
structure Field (σ : Type) where
  name : String
  /-- Whether a value was collected. -/
  present : σ → Bool
  /-- Take the value out and collect it. -/
  take : Draft → σ → Except ReadError σ
  /-- Whether a list may stop before the field. -/
  optional : Bool

/-- The layout of the record type `α`, whose fields are collected in `σ`. -/
structure Layout (σ α : Type) where
  /-- The name of the type in mismatches. -/
  title : String
  fields : List (Field σ)
  /-- Whether a field that the layout does not have is refused; else it is passed over. -/
  strict : Bool
  /-- The state before any field. -/
  empty : σ
  /-- The value that the fields make. -/
  build : σ → Except ReadError α

namespace Layout

variable {σ α : Type}

/-- The names of the fields. -/
def names (l : Layout σ α) : List String :=
  l.fields.map (·.name)

/-- Collect the fields of a record. -/
def collectMembers (l : Layout σ α) :
    List (Option String × Draft) → σ → Except ReadError σ
  | [], s => .ok s
  | (none, _) :: _, _ => .error .malformed
  | (some k, d) :: rest, s =>
    match l.fields.find? (·.name = k) with
    | none =>
      if l.strict then .error (.mismatch (.unknownField k l.names))
      else do
        d.skip
        collectMembers l rest s
    | some f =>
      if f.present s then .error (.mismatch (.duplicateField k))
      else do
        let s ← f.take d s
        collectMembers l rest s

/-- Collect the fields of a list, of which `index` were collected before. -/
def collectItems (l : Layout σ α) (stop : Option Break) :
    (index : Nat) → List (Field σ) → List Draft → σ → Except ReadError σ
  | _, [], [], s => do
    Draft.checkStop stop
    return s
  | _, [], _ :: _, _ => .error .malformed
  | index, f :: fs, d :: ds, s => do
    let s ← f.take d s
    collectItems l stop (index + 1) fs ds s
  | index, f :: fs, [], s => do
    Draft.checkStop stop
    if f.optional then collectItems l stop (index + 1) fs [] s
    else throw (.mismatch (.tooShort index
      (l.title ++ " with " ++ Text.decimal l.fields.length ++ " elements")))

/-- Read a value of the record type. -/
def read (l : Layout σ α) : Draft → Except ReadError α
  | .record members stop => do
    let s ← l.collectMembers members l.empty
    Draft.checkStop stop
    l.build s
  | .list items stop => do
    let s ← l.collectItems stop 0 l.fields items l.empty
    l.build s
  | d => d.refuse l.title

end Layout

end TableSnapshots.Json
