/-!
# The xxh3 digest of 128 bits

A fingerprint of a byte string, without a seed. Short inputs are mixed in one step that depends on
their length; inputs up to 240 bytes are mixed 32 bytes at a time, from both ends; longer inputs run
through eight accumulators, 64 bytes at a time, which are scrambled after every 1024 bytes. All
arithmetic is on words of 64 bits and wraps.
-/

namespace TableSnapshots.Digest

/-- The bytes that inputs are mixed with. -/
def secret : ByteArray := ⟨#[
  0xb8, 0xfe, 0x6c, 0x39, 0x23, 0xa4, 0x4b, 0xbe, 0x7c, 0x01, 0x81, 0x2c, 0xf7, 0x21, 0xad, 0x1c,
  0xde, 0xd4, 0x6d, 0xe9, 0x83, 0x90, 0x97, 0xdb, 0x72, 0x40, 0xa4, 0xa4, 0xb7, 0xb3, 0x67, 0x1f,
  0xcb, 0x79, 0xe6, 0x4e, 0xcc, 0xc0, 0xe5, 0x78, 0x82, 0x5a, 0xd0, 0x7d, 0xcc, 0xff, 0x72, 0x21,
  0xb8, 0x08, 0x46, 0x74, 0xf7, 0x43, 0x24, 0x8e, 0xe0, 0x35, 0x90, 0xe6, 0x81, 0x3a, 0x26, 0x4c,
  0x3c, 0x28, 0x52, 0xbb, 0x91, 0xc3, 0x00, 0xcb, 0x88, 0xd0, 0x65, 0x8b, 0x1b, 0x53, 0x2e, 0xa3,
  0x71, 0x64, 0x48, 0x97, 0xa2, 0x0d, 0xf9, 0x4e, 0x38, 0x19, 0xef, 0x46, 0xa9, 0xde, 0xac, 0xd8,
  0xa8, 0xfa, 0x76, 0x3f, 0xe3, 0x9c, 0x34, 0x3f, 0xf9, 0xdc, 0xbb, 0xc7, 0xc7, 0x0b, 0x4f, 0x1d,
  0x8a, 0x51, 0xe0, 0x4b, 0xcd, 0xb4, 0x59, 0x31, 0xc8, 0x9f, 0x7e, 0xc9, 0xd9, 0x78, 0x73, 0x64,
  0xea, 0xc5, 0xac, 0x83, 0x34, 0xd3, 0xeb, 0xc3, 0xc5, 0x81, 0xa0, 0xff, 0xfa, 0x13, 0x63, 0xeb,
  0x17, 0x0d, 0xdd, 0x51, 0xb7, 0xf0, 0xda, 0x49, 0xd3, 0x16, 0x55, 0x26, 0x29, 0xd4, 0x68, 0x9e,
  0x2b, 0x16, 0xbe, 0x58, 0x7d, 0x47, 0xa1, 0xfc, 0x8f, 0xf8, 0xb8, 0xd1, 0x7a, 0xd0, 0x31, 0xce,
  0x45, 0xcb, 0x3a, 0x8f, 0x95, 0x16, 0x04, 0x28, 0xaf, 0xd7, 0xfb, 0xca, 0xbb, 0x4b, 0x40, 0x7e
]⟩

/-! ## Words and multiplication -/

/-- Primes of 32 and of 64 bits, and two multipliers for the last mixing steps. -/
def prime32a : UInt64 := 0x9E3779B1
@[inherit_doc prime32a] def prime32b : UInt64 := 0x85EBCA77
@[inherit_doc prime32a] def prime32c : UInt64 := 0xC2B2AE3D
@[inherit_doc prime32a] def prime64a : UInt64 := 0x9E3779B185EBCA87
@[inherit_doc prime32a] def prime64b : UInt64 := 0xC2B2AE3D27D4EB4F
@[inherit_doc prime32a] def prime64c : UInt64 := 0x165667B19E3779F9
@[inherit_doc prime32a] def prime64d : UInt64 := 0x85EBCA77C2B2AE63
@[inherit_doc prime32a] def prime64e : UInt64 := 0x27D4EB2F165667C5
@[inherit_doc prime32a] def mixer1 : UInt64 := 0x165667919E3779F9
@[inherit_doc prime32a] def mixer2 : UInt64 := 0x9FB21C651E98DF25

/-- The byte at a position, as a word; zero past the end. -/
def byteAt (b : ByteArray) (i : Nat) : UInt64 :=
  if h : i < b.size then b[i].toUInt64 else 0

/-- The four bytes from a position on, the least significant one first. -/
def word32 (b : ByteArray) (i : Nat) : UInt64 :=
  byteAt b i ||| byteAt b (i + 1) <<< 8 ||| byteAt b (i + 2) <<< 16 ||| byteAt b (i + 3) <<< 24

/-- The eight bytes from a position on, the least significant one first. -/
def word64 (b : ByteArray) (i : Nat) : UInt64 :=
  word32 b i ||| word32 b (i + 4) <<< 32

/-- The lower half of a word. -/
def low32 (x : UInt64) : UInt64 :=
  x &&& 0xffffffff

/-- The four bytes of the lower half in the opposite order. -/
def swap32 (x : UInt64) : UInt64 :=
  let byte (shift : UInt64) : UInt64 := (x >>> shift) &&& 0xff
  byte 0 <<< 24 ||| byte 8 <<< 16 ||| byte 16 <<< 8 ||| byte 24

/-- The eight bytes in the opposite order. -/
def swap64 (x : UInt64) : UInt64 :=
  swap32 x <<< 32 ||| swap32 (x >>> 32)

/-- Two words, the halves of a number of 128 bits. -/
structure Wide where
  low : UInt64
  high : UInt64

/-- The whole product of two words. -/
def mulWide (x y : UInt64) : Wide :=
  let p := x.toNat * y.toNat
  ⟨p.toUInt64, (p >>> 64).toUInt64⟩

/-- The two halves of the product of two words, laid over each other. -/
def mulFold (x y : UInt64) : UInt64 :=
  let p := mulWide x y
  p.low ^^^ p.high

/-- Lay a word over itself, shifted right. -/
def xorShift (x : UInt64) (n : UInt64) : UInt64 :=
  x ^^^ x >>> n

/-- The last mixing step of a word. -/
def avalanche (x : UInt64) : UInt64 :=
  xorShift (xorShift x 37 * mixer1) 32

/-- The last mixing step of a word of the shortest inputs. -/
def avalancheShort (x : UInt64) : UInt64 :=
  xorShift (xorShift (xorShift x 33 * prime64b) 29 * prime64c) 32

/-- The length of an input as a word. -/
def lengthWord (b : ByteArray) : UInt64 :=
  b.size.toUInt64

/-! ## Short inputs -/

/-- No bytes. -/
def digestEmpty : Wide where
  low := avalancheShort (word64 secret 64 ^^^ word64 secret 72)
  high := avalancheShort (word64 secret 80 ^^^ word64 secret 88)

/-- One to three bytes: the first, middle and last one and the length make one word. -/
def digest1to3 (b : ByteArray) : Wide :=
  let n := b.size
  let l := byteAt b 0 <<< 16 ||| byteAt b (n / 2) <<< 24 ||| byteAt b (n - 1)
    ||| lengthWord b <<< 8
  let s := swap32 l
  let h := low32 (s <<< 13 ||| s >>> 19)
  { low := avalancheShort (l ^^^ (word32 secret 0 ^^^ word32 secret 4))
    high := avalancheShort (h ^^^ (word32 secret 8 ^^^ word32 secret 12)) }

/-- Four to eight bytes: the first and the last four, which may overlap. -/
def digest4to8 (b : ByteArray) : Wide :=
  let n := b.size
  let input := word32 b 0 + word32 b (n - 4) <<< 32
  let keyed := input ^^^ (word64 secret 16 ^^^ word64 secret 24)
  let p := mulWide keyed (prime64a + lengthWord b <<< 2)
  let high := p.high + p.low <<< 1
  let low := p.low ^^^ high >>> 3
  { low := xorShift (xorShift low 35 * mixer2) 28
    high := avalanche high }

/-- Nine to sixteen bytes: the first and the last eight, which may overlap. -/
def digest9to16 (b : ByteArray) : Wide :=
  let n := b.size
  let first := word64 b 0
  let last := word64 b (n - 8)
  let p := mulWide (first ^^^ last ^^^ (word64 secret 32 ^^^ word64 secret 40)) prime64a
  let low := p.low + (lengthWord b - 1) <<< 54
  let last := last ^^^ (word64 secret 48 ^^^ word64 secret 56)
  let high := p.high + (last + low32 last * (prime32b - 1))
  let low := low ^^^ swap64 high
  let q := mulWide low prime64b
  { low := avalanche q.low
    high := avalanche (q.high + high * prime64b) }

/-! ## Inputs up to 240 bytes -/

/-- Sixteen bytes of the input from `i` on, mixed with the secret from `k` on. -/
def mix16 (b : ByteArray) (i k : Nat) : UInt64 :=
  mulFold (word64 b i ^^^ word64 secret k) (word64 b (i + 8) ^^^ word64 secret (k + 8))

/-- Two times sixteen bytes of the input, from `i` and from `j` on, mixed into a state. -/
def mix32 (b : ByteArray) (acc : Wide) (i j k : Nat) : Wide where
  low := (acc.low + mix16 b i k) ^^^ (word64 b j + word64 b (j + 8))
  high := (acc.high + mix16 b j (k + 16)) ^^^ (word64 b i + word64 b (i + 8))

/-- The digest of a state that all bytes were mixed into. -/
def finish (b : ByteArray) (acc : Wide) : Wide where
  low := avalanche (acc.low + acc.high)
  high := 0 - avalanche (acc.low * prime64a + acc.high * prime64d + lengthWord b * prime64b)

/-- The state before any byte. -/
def start (b : ByteArray) : Wide where
  low := lengthWord b * prime64a
  high := 0

/-- 17 to 128 bytes: pairs of sixteen bytes from both ends, the innermost pair first. -/
def digest17to128 (b : ByteArray) : Wide :=
  let n := b.size
  let rounds := (List.range ((n + 31) / 32)).reverse
  finish b (rounds.foldl (fun acc r => mix32 b acc (16 * r) (n - 16 * (r + 1)) (32 * r)) (start b))

/-- 129 to 240 bytes: 32 bytes at a time from the start, then the last 32. -/
def digest129to240 (b : ByteArray) : Wide :=
  let n := b.size
  let first := (List.range 4).foldl
    (fun acc r => mix32 b acc (32 * r) (32 * r + 16) (32 * r)) (start b)
  let mixed : Wide := ⟨avalanche first.low, avalanche first.high⟩
  let rest := (List.range (n / 32 - 4)).foldl
    (fun acc r => mix32 b acc (128 + 32 * r) (144 + 32 * r) (3 + 32 * r)) mixed
  -- The last 32 bytes come in the opposite order.
  finish b (mix32 b rest (n - 16) (n - 32) 103)

/-! ## Longer inputs -/

/-- The accumulators before any byte. -/
def lanes : Vector UInt64 8 :=
  #v[prime32c, prime64a, prime64b, prime64c, prime64d, prime32b, prime64e, prime32a]

/-- Add 64 bytes of the input, from `i` on, keyed with the secret from `k` on. Each lane takes the
product of the two halves of its keyed word and the plain word of its neighbour. -/
def accumulate (b : ByteArray) (acc : Vector UInt64 8) (i k : Nat) : Vector UInt64 8 :=
  Vector.ofFn fun lane =>
    let neighbour := if lane.val % 2 = 0 then lane.val + 1 else lane.val - 1
    let keyed := word64 b (i + 8 * lane.val) ^^^ word64 secret (k + 8 * lane.val)
    acc[lane] + word64 b (i + 8 * neighbour) + low32 keyed * (keyed >>> 32)

/-- Scramble the accumulators at the end of a block. -/
def scramble (acc : Vector UInt64 8) : Vector UInt64 8 :=
  Vector.ofFn fun lane =>
    (xorShift acc[lane] 47 ^^^ word64 secret (128 + 8 * lane.val)) * prime32a

/-- Add `count` times 64 bytes from `i` on, each with the secret eight bytes further on. -/
def accumulateMany (b : ByteArray) (acc : Vector UInt64 8) (i count : Nat) : Vector UInt64 8 :=
  (List.range count).foldl (fun acc r => accumulate b acc (i + 64 * r) (8 * r)) acc

/-- Merge the accumulators into one word, with the secret from `k` on. -/
def merge (acc : Vector UInt64 8) (k : Nat) (first : UInt64) : UInt64 :=
  avalanche <| first
    + mulFold (acc[0] ^^^ word64 secret k) (acc[1] ^^^ word64 secret (k + 8))
    + mulFold (acc[2] ^^^ word64 secret (k + 16)) (acc[3] ^^^ word64 secret (k + 24))
    + mulFold (acc[4] ^^^ word64 secret (k + 32)) (acc[5] ^^^ word64 secret (k + 40))
    + mulFold (acc[6] ^^^ word64 secret (k + 48)) (acc[7] ^^^ word64 secret (k + 56))

/-- More than 240 bytes: whole blocks of 1024 bytes, what is left in steps of 64 bytes, and the last
64 bytes once more. At least one byte is always left after the blocks and after the steps. -/
def digestLong (b : ByteArray) : Wide :=
  let n := b.size
  let blocks := (n - 1) / 1024
  let acc := (List.range blocks).foldl
    (fun acc r => scramble (accumulateMany b acc (1024 * r) 16)) lanes
  let acc := accumulateMany b acc (1024 * blocks) ((n - 1 - 1024 * blocks) / 64)
  let acc := accumulate b acc (n - 64) 121
  { low := merge acc 11 (lengthWord b * prime64a)
    high := merge acc 117 (~~~(lengthWord b * prime64b)) }

/-- The xxh3 digest of 128 bits. -/
def xxh3 (b : ByteArray) : BitVec 128 :=
  let d :=
    if b.size = 0 then digestEmpty
    else if b.size ≤ 3 then digest1to3 b
    else if b.size ≤ 8 then digest4to8 b
    else if b.size ≤ 16 then digest9to16 b
    else if b.size ≤ 128 then digest17to128 b
    else if b.size ≤ 240 then digest129to240 b
    else digestLong b
  (d.high.toBitVec ++ d.low.toBitVec).cast rfl

end TableSnapshots.Digest
