/-!
# Words

How many numbers a word of some number of bits can hold. The numbers of such a word are those below
the count.
-/

namespace TableSnapshots

/-- How many numbers a word of `bits` bits can hold. -/
def wordCount (bits : Nat) : Nat :=
  Nat.pow 2 bits

end TableSnapshots
