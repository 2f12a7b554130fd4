/-!
# Hexadecimal of a fixed width

A digest is written with all its digits, leading zeros included, so that every digest of one size
has a text of one length.
-/

namespace TableSnapshots.Digest

/-- The hexadecimal digit of a number below sixteen, in lower case. -/
def hexDigit (n : Nat) : Char :=
  if n < 10 then Char.ofNat ('0'.toNat + n) else Char.ofNat ('a'.toNat + (n - 10))

/-- The last `width` hexadecimal digits of `n`, the most significant one first. -/
def hexDigits : (width n : Nat) → List Char
  | 0, _ => []
  | width + 1, n => hexDigits width (n / 16) ++ [hexDigit (n % 16)]

/-- The text of a digest of 128 bits. -/
def hex (d : BitVec 128) : String :=
  String.ofList (hexDigits 32 d.toNat)

end TableSnapshots.Digest
