import TableSnapshots.Text.Lossy

/-!
# Bytes with a mark of their encoding

A text may begin with a mark that tells how its bytes are to be read: as UTF-8, or as 16-bit units
with the low or with the high byte first. The mark is no part of the text. Bytes without a mark are
UTF-8. What is no text is replaced.
-/

namespace TableSnapshots.Text

/-- The 16-bit units of some bytes, and whether a byte is left over. -/
def units (highFirst : Bool) : List UInt8 → List Nat × Bool
  | a :: b :: rest =>
    let (us, odd) := units highFirst rest
    let u := if highFirst then a.toNat * 256 + b.toNat else b.toNat * 256 + a.toNat
    (u :: us, odd)
  | [_] => ([], true)
  | [] => ([], false)

/-- Whether a unit is the first half of a character. -/
def isHighHalf (u : Nat) : Bool :=
  0xd800 ≤ u && u < 0xdc00

/-- Whether a unit is the second half of a character. -/
def isLowHalf (u : Nat) : Bool :=
  0xdc00 ≤ u && u < 0xe000

/-- The character of two halves. -/
def ofHalves (high low : Nat) : Char :=
  Char.ofNat (0x10000 + (high - 0xd800) * 0x400 + (low - 0xdc00))

/-- The characters of some units, after which a byte may be left over. -/
def ofUnits (odd : Bool) : List Nat → List Char
  | [] => if odd then [replacement] else []
  | [u] =>
    if isHighHalf u then [replacement]
    else (if isLowHalf u then replacement else Char.ofNat u) :: ofUnits odd []
  | u :: v :: rest =>
    if isHighHalf u then
      if isLowHalf v then ofHalves u v :: ofUnits odd rest
      else replacement :: ofUnits odd (v :: rest)
    else (if isLowHalf u then replacement else Char.ofNat u) :: ofUnits odd (v :: rest)

/-- The text of 16-bit units. -/
def ofWide (highFirst : Bool) (bytes : List UInt8) : String :=
  let (us, odd) := units highFirst bytes
  String.ofList (ofUnits odd us)

/-- The text of bytes that may begin with a mark. -/
def ofMarked (bytes : ByteArray) : String :=
  match bytes.toList with
  | 0xef :: 0xbb :: 0xbf :: rest => lossy ⟨rest.toArray⟩
  | 0xff :: 0xfe :: rest => ofWide false rest
  | 0xfe :: 0xff :: rest => ofWide true rest
  | _ => lossy bytes

end TableSnapshots.Text
