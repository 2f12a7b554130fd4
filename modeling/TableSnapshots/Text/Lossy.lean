import TableSnapshots.Word

/-!
# Bytes as text

Bytes that should be UTF-8, read as text in any case. What is not UTF-8 is replaced: each longest
start of a character that does not go on as one becomes a single replacement character.
-/

namespace TableSnapshots.Text

/-- The character that stands for bytes that are no text. -/
def replacement : Char := '\ufffd'

/-- Whether a byte goes on with a character. -/
def isContinuation (b : UInt8) : Bool :=
  0x80 ≤ b && b ≤ 0xbf

/-- Which bytes may follow the first byte of a character, and how many bytes follow in all. A first
byte that starts no character has none. -/
def sequel? (b : UInt8) : Option ((UInt8 → Bool) × Nat) :=
  if 0xc2 ≤ b && b ≤ 0xdf then some (isContinuation, 1)
  else if b = 0xe0 then some (fun c => 0xa0 ≤ c && c ≤ 0xbf, 2)
  else if b = 0xed then some (fun c => 0x80 ≤ c && c ≤ 0x9f, 2)
  else if 0xe1 ≤ b && b ≤ 0xef then some (isContinuation, 2)
  else if b = 0xf0 then some (fun c => 0x90 ≤ c && c ≤ 0xbf, 3)
  else if b = 0xf4 then some (fun c => 0x80 ≤ c && c ≤ 0x8f, 3)
  else if 0xf1 ≤ b && b ≤ 0xf3 then some (isContinuation, 3)
  else none

/-- Read the bytes after the first one of a character: `left` more bytes are needed, the next one
among those that `allowed` allows. -/
def goOn (allowed : UInt8 → Bool) : (left : Nat) → (value : Nat) → List UInt8 → Char × List UInt8
  | 0, value, bs => (Char.ofNat value, bs)
  | _ + 1, _, [] => (replacement, [])
  | left + 1, value, b :: bs =>
    if allowed b then goOn isContinuation left (value * 64 + b.toNat % 64) bs
    else (replacement, b :: bs)

/-- The bits that the first byte of a character gives, when `more` bytes follow. -/
def leadBits (b : UInt8) (more : Nat) : Nat :=
  b.toNat % wordCount (6 - more)

/-- Read one character. -/
def nextChar (b : UInt8) (bs : List UInt8) : Char × List UInt8 :=
  if b < 0x80 then (Char.ofNat b.toNat, bs)
  else match sequel? b with
    | none => (replacement, bs)
    | some (allowed, more) => goOn allowed more (leadBits b more) bs

/-- Read at most `fuel` characters. -/
def lossyChars : (fuel : Nat) → List UInt8 → List Char
  | 0, _ => []
  | _ + 1, [] => []
  | fuel + 1, b :: bs =>
    let (c, rest) := nextChar b bs
    c :: lossyChars fuel rest

/-- The text of some bytes. -/
def lossy (bytes : ByteArray) : String :=
  String.ofList (lossyChars bytes.size bytes.data.toList)

end TableSnapshots.Text
