/-!
# Blanks

The characters that separate nothing from something: those with the Unicode property White_Space.
A server's text answers, version strings and counter files are read without the blanks around
them, and the ends of a query are looked at without the blanks after it.
-/

namespace TableSnapshots.Text

/-- The ranges of code points that have the property White_Space. -/
def blankRanges : List (Nat × Nat) :=
  [(0x9, 0xd), (0x20, 0x20), (0x85, 0x85), (0xa0, 0xa0), (0x1680, 0x1680), (0x2000, 0x200a),
    (0x2028, 0x2029), (0x202f, 0x202f), (0x205f, 0x205f), (0x3000, 0x3000)]

/-- Whether a character is a blank. -/
def isBlank (c : Char) : Bool :=
  blankRanges.any fun r => r.1 ≤ c.toNat && c.toNat ≤ r.2

/-- The characters of `cs` without the blanks after the last other character. -/
def trimRight (cs : List Char) : List Char :=
  (cs.reverse.dropWhile isBlank).reverse

/-- The characters of `cs` without the blanks on either side. -/
def trimChars (cs : List Char) : List Char :=
  trimRight (cs.dropWhile isBlank)

/-- The text without the blanks on either side. -/
def trim (s : String) : String :=
  String.ofList (trimChars s.toList)

end TableSnapshots.Text
