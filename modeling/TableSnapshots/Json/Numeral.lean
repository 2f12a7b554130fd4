import TableSnapshots.Text.Digits

/-!
# Numbers in JSON text

The spelling of a number and the number that it stands for. A whole number that fits into 64 bits
stays one. Any other number becomes a floating-point number: as many digits as fit into 64 bits are
taken, and the result is multiplied or divided by a power of ten.
-/

namespace TableSnapshots.Json

/-- The spelling of a number. -/
structure Numeral where
  negative : Bool
  whole : List Char
  /-- The digits after the point; none if there is no point. -/
  fraction : Option (List Char)
  /-- Whether the exponent is negative, and its digits. -/
  exponent : Option (Bool × List Char)
  deriving DecidableEq, Repr

/-- The number of a numeral. -/
inductive Number where
  | integer (n : Int)
  | decimal (x : Float)

namespace Numeral

/-- Append digits to a number while it fits into 64 bits; the digits that no longer fit are left. -/
def takeDigits : Nat → List Char → Nat × List Char
  | n, [] => (n, [])
  | n, c :: cs =>
    let next := 10 * n + Text.digitValue c
    if next < wordCount 64 then takeDigits next cs else (n, c :: cs)

/-- A power of ten up to `10 ^ 308`, rounded. -/
def powerOfTen (e : Nat) : Float :=
  OfScientific.ofScientific 1 false e

/-- Divide by a power of ten, in steps that are no larger than the largest power. -/
def divide (x : Float) (e : Nat) : Float :=
  if e ≤ 308 then x / powerOfTen e
  else if x == 0 then x
  else divide (x / powerOfTen 308) (e - 308)
termination_by e

/-- Multiply or divide by a power of ten. There is no result beyond the largest number. -/
def scale? (x : Float) (e : Int) : Option Float :=
  if e < 0 then some (divide x e.natAbs)
  else if e ≤ 308 then
    let y := x * powerOfTen e.toNat
    if y.isInf then none else some y
  else if x == 0 then some x
  else none

/-- The greatest number that an exponent may be. -/
def exponentLimit : Nat := wordCount 31 - 1

/-- The size of a number with `digits` as its digits, to be multiplied by `10 ^ shift` and by the
exponent. An exponent that is out of range makes it zero or too large. -/
def size? (digits : Nat) (shift : Int) (exponent : Option (Bool × List Char)) : Option Float :=
  let x := digits.toUInt64.toFloat
  match exponent with
  | none => scale? x shift
  | some (down, cs) =>
    let e := Text.digitsValue cs
    if exponentLimit < e then (if digits ≠ 0 && !down then none else some 0)
    else if down then scale? x (max (shift - e) (-Int.ofNat exponentLimit - 1))
    else scale? x (min (shift + e) (Int.ofNat exponentLimit))

/-- The number of a numeral, if there is one. Zero with a sign is a floating-point number, since no
whole number is a negative zero. -/
def number? (n : Numeral) : Option Number :=
  let (digits, dropped) := takeDigits 0 n.whole
  let signed (x : Float) : Number := .decimal (if n.negative then -x else x)
  match n.fraction, n.exponent with
  | none, none =>
    if !dropped.isEmpty then (scale? digits.toUInt64.toFloat dropped.length).map signed
    else if !n.negative then some (.integer digits)
    else if 1 ≤ digits && digits ≤ wordCount 63 then some (.integer (-digits))
    else some (signed digits.toUInt64.toFloat)
  | fraction, exponent =>
    let cs := fraction.getD []
    let (digits, left) := takeDigits digits cs
    let shift : Int := dropped.length - (cs.length - left.length : Nat)
    (size? digits shift exponent).map signed

end Numeral

end TableSnapshots.Json
