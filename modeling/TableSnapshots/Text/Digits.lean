import TableSnapshots.Word

/-!
# Decimal digits

Reading and writing natural numbers in decimal. Only the ten digits of ASCII count as digits: a
digit of another script ends a number.
-/

namespace TableSnapshots.Text

/-- Whether a character is one of the ten digits of ASCII. -/
def isDigit (c : Char) : Bool :=
  '0' ≤ c && c ≤ '9'

/-- The value of a digit. -/
def digitValue (c : Char) : Nat :=
  c.toNat - '0'.toNat

/-- The number that a list of digits writes, the most significant digit first. -/
def digitsValue (cs : List Char) : Nat :=
  cs.foldl (fun n c => 10 * n + digitValue c) 0

/-- The number written by one or more digits, if a word of `bits` bits can hold it. -/
def readDigits? (bits : Nat) (cs : List Char) : Option Nat :=
  if !cs.isEmpty && cs.all isDigit && digitsValue cs < wordCount bits then some (digitsValue cs)
  else none

/-- The number written by one or more digits after at most one `+`, if a word of `bits` bits can
hold it. -/
def readUnsigned? (bits : Nat) (cs : List Char) : Option Nat :=
  match cs with
  | '+' :: digits => readDigits? bits digits
  | digits => readDigits? bits digits

/-- The decimal of a natural number, without leading zeros. -/
def decimal (n : Nat) : String :=
  String.ofList (Nat.toDigits 10 n)

/-- The decimal of an integer, with a minus sign before it if it is negative. -/
def signedDecimal : Int → String
  | .ofNat n => decimal n
  | .negSucc n => "-" ++ decimal (n + 1)

end TableSnapshots.Text
