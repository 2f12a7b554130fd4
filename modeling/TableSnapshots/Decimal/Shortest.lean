import TableSnapshots.Word

/-!
# Shortest decimals

The decimal with the fewest digits that still names one floating-point number: every real number
closer to it than to its neighbours rounds to it, so a decimal among those is enough. Grids of
decimals are tried from coarse to fine, and on each grid only the two neighbours of the number,
since no other point of the grid is closer. The arithmetic is exact.
-/

namespace TableSnapshots.Decimal

/-- A positive floating-point number `significand * 2 ^ exponent`. The gap below it is half the gap
above it where the exponent changes. -/
structure Binary where
  significand : Nat
  exponent : Int
  narrowBelow : Bool

/-- A decimal `digits * 10 ^ exponent`. -/
structure Digits where
  digits : Nat
  exponent : Int
  deriving DecidableEq, Repr

/-- The decomposition of a finite, positive number. -/
def Binary.ofFloat (x : Float) : Binary :=
  let bits := x.toBits.toNat
  let field := bits / wordCount 52 % wordCount 11
  let fraction := bits % wordCount 52
  if field = 0 then ⟨fraction, -1074, false⟩
  else ⟨wordCount 52 + fraction, Int.ofNat field - 1075, fraction = 0 && 1 < field⟩

namespace Binary

/-- The number on the grid of `10 ^ k`, as a quotient `4 * significand * up / down`. -/
def up (b : Binary) (k : Int) : Nat :=
  Nat.pow 2 (b.exponent - 2).toNat * Nat.pow 10 (-k).toNat

@[inherit_doc up]
def down (b : Binary) (k : Int) : Nat :=
  Nat.pow 2 (2 - b.exponent).toNat * Nat.pow 10 k.toNat

/-- Whether `c * 10 ^ k` rounds to the number. The ends of the interval do so if the significand is
even. -/
def rounds (b : Binary) (k : Int) (c : Nat) : Bool :=
  let least := (4 * b.significand - if b.narrowBelow then 1 else 2) * b.up k
  let most := (4 * b.significand + 2) * b.up k
  let here := c * b.down k
  if b.significand % 2 = 0 then least ≤ here && here ≤ most else least < here && here < most

/-- The point of the grid of `10 ^ k` nearest to the number, if it rounds to it. -/
def onGrid? (b : Binary) (k : Int) : Option Digits :=
  let exact := 4 * b.significand * b.up k
  let below := exact / b.down k
  let above := below + 1
  match b.rounds k below, b.rounds k above with
  | false, false => none
  | true, false => some ⟨below, k⟩
  | false, true => some ⟨above, k⟩
  | true, true =>
    let toBelow := exact - below * b.down k
    let toAbove := above * b.down k - exact
    if toBelow < toAbove || (toBelow = toAbove && below % 2 = 0) then some ⟨below, k⟩
    else some ⟨above, k⟩

/-- The exponent of the leading decimal digit of the number. -/
def leadingExponent (b : Binary) : Int :=
  Int.ofNat (Nat.toDigits 10 (4 * b.significand * b.up (-400) / b.down (-400))).length - 401

/-- The decimal with the fewest digits that rounds to the number, the nearest one of those.
Seventeen digits are always enough. -/
def shortest (b : Binary) : Digits :=
  ((List.range 17).findSome? fun (n : Nat) => b.onGrid? (b.leadingExponent - n)).getD ⟨0, 0⟩

end Binary

/-- How a decimal is written. -/
structure Style where
  /-- The least exponent of the leading digit that is written without an exponent. -/
  leastPositional : Int
  /-- The greatest one. -/
  mostPositional : Int

/-- Whole numbers and numbers of ordinary size are written out, with a zero after the point if they
are whole; others take an exponent with its sign. -/
def Style.json : Style where
  leastPositional := -5
  mostPositional := 15

/-- The digits of a decimal without the zeros at the end. -/
def Digits.significant (d : Digits) : List Char :=
  ((Nat.toDigits 10 d.digits).reverse.dropWhile (· = '0')).reverse

/-- The text of a positive decimal. -/
def Digits.write (style : Style) (d : Digits) : List Char :=
  let all := Nat.toDigits 10 d.digits
  let cs := d.significant
  let lead : Int := d.exponent + all.length - 1
  if style.leastPositional ≤ lead && lead ≤ style.mostPositional then
    if lead < 0 then ['0', '.'] ++ List.replicate (-lead - 1).toNat '0' ++ cs
    else
      let whole := lead.toNat + 1
      if cs.length ≤ whole then cs ++ List.replicate (whole - cs.length) '0' ++ ['.', '0']
      else cs.take whole ++ '.' :: cs.drop whole
  else
    let mantissa := match cs with
      | [] => []
      | [c] => [c]
      | c :: rest => c :: '.' :: rest
    let sign := if lead < 0 then '-' else '+'
    mantissa ++ 'e' :: sign :: Nat.toDigits 10 lead.natAbs

/-- The text of a finite floating-point number. -/
def floatText (x : Float) : String :=
  let negative := x.toBits.toNat / wordCount 63 = 1
  let size := Float.ofBits (x.toBits &&& 0x7fffffffffffffff)
  let cs := if size == 0 then ['0', '.', '0'] else (Binary.ofFloat size).shortest.write .json
  String.ofList (if negative then '-' :: cs else cs)

end TableSnapshots.Decimal
