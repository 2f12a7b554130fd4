import Mathlib.Tactic.IntervalCases
import Mathlib.Tactic.SplitIfs
import TableSnapshots.Text.Lossy

/-!
# The bytes of texts

Bytes are read as a text exactly if they are its bytes (`fromUTF8?_eq_some_iff`). Texts are compared
by their characters, and their bytes compare in the same way (`lt_iff_bytes_lt`), since of two
characters the lower one has the lower byte where their encodings part (`utf8EncodeChar_append_lt`).
Where bytes are read as a text in any case, those of a text are still read as the text
(`lossy_toUTF8`), one character after the other (`nextChar_utf8EncodeChar`).
-/

namespace TableSnapshots.Text

/-! ## Reading bytes -/

/-- The bytes of a text are read as the text. -/
theorem fromUTF8?_toUTF8 (s : String) : String.fromUTF8? s.toUTF8 = some s := by
  unfold String.fromUTF8?
  rw [String.toUTF8_eq_toByteArray, dif_pos s.isValidUTF8]
  rfl

/-- Bytes are read as a text exactly if they are its bytes. -/
theorem fromUTF8?_eq_some_iff {bytes : ByteArray} {s : String} :
    String.fromUTF8? bytes = some s ↔ bytes = s.toUTF8 := by
  constructor
  · intro h
    unfold String.fromUTF8? at h
    split at h
    · cases h
      rfl
    · cases h
  · rintro rfl
    exact fromUTF8?_toUTF8 s

/-! ## Their order -/

/-- The bytes of a text. -/
def bytes (s : String) : List UInt8 :=
  s.toByteArray.data.toList

/-- They are those of its characters, one after the other. -/
theorem bytes_eq_flatMap (s : String) : bytes s = s.toList.flatMap String.utf8EncodeChar := by
  unfold bytes
  rw [← String.utf8Encode_toList]
  exact List.toList_data_toByteArray

/-- The encoding of a lower character comes first, whatever follows the two. -/
theorem utf8EncodeChar_append_lt {c d : Char} (h : c < d) (xs ys : List UInt8) :
    String.utf8EncodeChar c ++ xs < String.utf8EncodeChar d ++ ys := by
  have hlt : c.val.toNat < d.val.toNat := h
  have hmax : d.val.toNat < 0x110000 := by
    have hvalid : d.val.toNat < 0xd800 ∨ 0xdfff < d.val.toNat ∧ d.val.toNat < 0x110000 := d.valid
    omega
  unfold String.utf8EncodeChar
  generalize c.val.toNat = m at *
  generalize d.val.toNat = n at *
  dsimp only
  -- Four lengths on each side. What is left in each case is about digits to the base 64.
  have hm : m / 64 / 64 = m / 4096 ∧ m / 4096 / 64 = m / 262144 := by omega
  have hn : n / 64 / 64 = n / 4096 ∧ n / 4096 / 64 = n / 262144 := by omega
  have hlead : (m / 262144 % 8 + 240) % 2 ^ 8 = m / 262144 + 240 ∧
      (n / 262144 % 8 + 240) % 2 ^ 8 = n / 262144 + 240 := by omega
  have hbyte : ∀ x, (x % 64 + 128) % 2 ^ 8 = x % 64 + 128 := by omega
  by_cases hrest : xs < ys <;> split_ifs <;>
    simp only [List.cons_append, List.nil_append, List.cons_lt_cons_iff, UInt8.lt_iff_toNat_lt,
      ← UInt8.toNat_inj, UInt8.toNat_ofNat', hrest, and_true, and_false, or_false, hbyte, hlead] <;>
    omega

/-- The bytes of a text come first if its characters do. -/
theorem flatMap_utf8EncodeChar_lt {cs ds : List Char} (h : cs < ds) :
    cs.flatMap String.utf8EncodeChar < ds.flatMap String.utf8EncodeChar := by
  induction cs generalizing ds with
  | nil =>
    cases ds with
    | nil => cases h
    | cons d ds =>
      obtain ⟨b, bs, hb⟩ := List.exists_cons_of_ne_nil (String.utf8EncodeChar_ne_nil (c := d))
      rw [List.flatMap_nil, List.flatMap_cons, hb]
      exact List.nil_lt_cons b _
  | cons c cs ih =>
    cases ds with
    | nil => cases h
    | cons d ds =>
      rw [List.flatMap_cons, List.flatMap_cons]
      rcases List.cons_lt_cons_iff.mp h with hlt | ⟨rfl, hrest⟩
      · exact utf8EncodeChar_append_lt hlt _ _
      · exact List.append_left_lt (ih hrest)

/-- Texts are in the order of their bytes. -/
theorem lt_iff_bytes_lt {s s' : String} : s < s' ↔ bytes s < bytes s' := by
  have hbytes : ∀ {a b : String}, a < b → bytes a < bytes b := by
    intro a b hab
    rw [bytes_eq_flatMap, bytes_eq_flatMap]
    exact flatMap_utf8EncodeChar_lt hab
  refine ⟨hbytes, fun h => ?_⟩
  -- The texts could not be in another order, nor the same.
  refine String.not_le.mp fun hle => ?_
  have hne : s ≠ s' := by
    rintro rfl
    exact List.lt_irrefl _ h
  have hlt : s' < s := String.not_le.mp fun hge => hne (String.le_antisymm hge hle)
  exact List.lt_asymm h (hbytes hlt)

/-! ## Reading bytes in any case -/

/-- A byte that is written out as a number is this number. -/
theorem toNat_ofNat_of_lt {k : Nat} (h : k < 256) : (UInt8.ofNat k).toNat = k := by
  rw [UInt8.toNat_ofNat']
  exact Nat.mod_eq_of_lt h

/-- Of a byte that is allowed to follow six bits are taken in. -/
theorem goOn_six {allowed : UInt8 → Bool} {n : Nat}
    (h : allowed (UInt8.ofNat (n % 64 + 128)) = true) (left value : Nat) (bs : List UInt8) :
    goOn allowed (left + 1) value (UInt8.ofNat (n % 64 + 128) :: bs)
      = goOn isContinuation left (value * 64 + n % 64) bs := by
  have hbits : (UInt8.ofNat (n % 64 + 128)).toNat % 64 = n % 64 := by
    rw [toNat_ofNat_of_lt (by omega)]
    omega
  rw [goOn, if_pos h, hbits]

/-- A first byte is followed as its number tells. -/
theorem nextChar_lead {k more : Nat} {allowed : UInt8 → Bool} (hk : 128 ≤ k) (hk' : k < 256)
    (h : sequel? (UInt8.ofNat k) = some (allowed, more)) (bs : List UInt8) :
    nextChar (UInt8.ofNat k) bs = goOn allowed more (k % wordCount (6 - more)) bs := by
  have hlow : ¬ UInt8.ofNat k < 0x80 := by
    rw [UInt8.lt_iff_toNat_lt, toNat_ofNat_of_lt hk']
    exact Nat.not_lt.mpr hk
  rw [nextChar, if_neg hlow, h]
  dsimp only
  rw [leadBits, toNat_ofNat_of_lt hk']

/-- A byte with six bits may follow. -/
theorem isContinuation_six (n : Nat) : isContinuation (UInt8.ofNat (n % 64 + 128)) = true := by
  have hlt : n % 64 < 64 := Nat.mod_lt n (by decide)
  generalize n % 64 = s at hlt
  interval_cases s <;> rfl

/-- The first of two bytes. -/
theorem sequel?_two {m : Nat} (hm : 2 ≤ m) (hm' : m < 32) :
    sequel? (UInt8.ofNat (m + 192)) = some (isContinuation, 1) := by
  interval_cases m <;> rfl

/-- The first of three bytes allows the second one, which leaves out what fewer bytes can say and
the numbers of no characters. -/
theorem sequel?_three {m s : Nat} (hm : m < 16) (hs : s < 64) (hfew : m = 0 → 32 ≤ s)
    (hgap : m = 13 → s < 32) :
    ∃ allowed, sequel? (UInt8.ofNat (m + 224)) = some (allowed, 2) ∧
      allowed (UInt8.ofNat (s + 128)) = true := by
  interval_cases m <;> refine ⟨_, rfl, ?_⟩ <;>
    simp [isContinuation, UInt8.le_iff_toNat_le] <;> omega

/-- The first of four bytes allows the second one, which leaves out what fewer bytes can say and
numbers that are too large. -/
theorem sequel?_four {m s : Nat} (hm : m < 5) (hs : s < 64) (hfew : m = 0 → 16 ≤ s)
    (hlarge : m = 4 → s < 16) :
    ∃ allowed, sequel? (UInt8.ofNat (m + 240)) = some (allowed, 3) ∧
      allowed (UInt8.ofNat (s + 128)) = true := by
  interval_cases m <;> refine ⟨_, rfl, ?_⟩ <;>
    simp [isContinuation, UInt8.le_iff_toNat_le] <;> omega

/-- The bytes of a character are read as the character, whatever follows. -/
theorem nextChar_utf8EncodeChar (c : Char) (rest : List UInt8) :
    ∃ b bs, String.utf8EncodeChar c = b :: bs ∧ nextChar b (bs ++ rest) = (c, rest) := by
  obtain ⟨n, hn, hvalid⟩ : ∃ n, Char.ofNat n = c ∧ c.val.toNat = n ∧
      (n < 0xd800 ∨ 0xdfff < n ∧ n < 0x110000) := ⟨c.toNat, Char.ofNat_toNat c, rfl, c.valid⟩
  obtain ⟨hval, hvalid⟩ := hvalid
  unfold String.utf8EncodeChar
  dsimp only
  rw [hval]
  split_ifs with hone htwo hthree
  · refine ⟨_, _, rfl, ?_⟩
    have hlow : UInt8.ofNat n < 0x80 := by
      rw [UInt8.lt_iff_toNat_lt, toNat_ofNat_of_lt (by omega)]
      exact Nat.lt_succ_of_le hone
    rw [nextChar, if_pos hlow, toNat_ofNat_of_lt (by omega), hn]
    rfl
  · refine ⟨_, _, rfl, ?_⟩
    have hlead := sequel?_two (m := n / 64 % 32) (by omega) (by omega)
    have hvalue : (n / 64 % 32 + 192) % wordCount (6 - 1) * 64 + n % 64 = n := by
      rw [show wordCount (6 - 1) = 32 from rfl]
      omega
    rw [nextChar_lead (by omega) (by omega) hlead, List.cons_append,
      goOn_six (isContinuation_six n), hvalue, goOn, hn]
    rfl
  · refine ⟨_, _, rfl, ?_⟩
    obtain ⟨allowed, hlead, hallowed⟩ := sequel?_three (m := n / 4096 % 16) (s := n / 64 % 64)
      (by omega) (by omega) (by omega) (by omega)
    have hvalue : ((n / 4096 % 16 + 224) % wordCount (6 - 2) * 64 + n / 64 % 64) * 64 + n % 64
        = n := by
      rw [show wordCount (6 - 2) = 16 from rfl]
      omega
    rw [nextChar_lead (by omega) (by omega) hlead, List.cons_append, goOn_six hallowed,
      List.cons_append, goOn_six (isContinuation_six n), hvalue, goOn, hn]
    rfl
  · refine ⟨_, _, rfl, ?_⟩
    obtain ⟨allowed, hlead, hallowed⟩ := sequel?_four (m := n / 262144 % 8) (s := n / 4096 % 64)
      (by omega) (by omega) (by omega) (by omega)
    have hvalue : (((n / 262144 % 8 + 240) % wordCount (6 - 3) * 64 + n / 4096 % 64) * 64
        + n / 64 % 64) * 64 + n % 64 = n := by
      rw [show wordCount (6 - 3) = 8 from rfl]
      omega
    rw [nextChar_lead (by omega) (by omega) hlead, List.cons_append, goOn_six hallowed,
      List.cons_append, goOn_six (isContinuation_six (n / 64)), List.cons_append,
      goOn_six (isContinuation_six n), hvalue, goOn, hn]
    rfl

/-- The bytes of characters are read as the characters. -/
theorem lossyChars_flatMap (cs : List Char) {fuel : Nat}
    (h : (cs.flatMap String.utf8EncodeChar).length ≤ fuel) :
    lossyChars fuel (cs.flatMap String.utf8EncodeChar) = cs := by
  induction cs generalizing fuel with
  | nil => cases fuel <;> rfl
  | cons c cs ih =>
    obtain ⟨b, bs, hbytes, hnext⟩ :=
      nextChar_utf8EncodeChar c (cs.flatMap String.utf8EncodeChar)
    rw [List.flatMap_cons, hbytes, List.cons_append] at h ⊢
    rw [List.length_cons, List.length_append] at h
    obtain ⟨fuel, rfl⟩ : ∃ fuel', fuel = fuel' + 1 := ⟨fuel - 1, by omega⟩
    rw [lossyChars, hnext]
    exact congrArg (c :: ·) (ih (by omega))

/-- The bytes of a text are read as the text. -/
theorem lossy_toUTF8 (s : String) : lossy s.toUTF8 = s := by
  have hbytes : s.toUTF8.data.toList = s.toList.flatMap String.utf8EncodeChar := bytes_eq_flatMap s
  have hsize : s.toUTF8.size = (s.toList.flatMap String.utf8EncodeChar).length := by
    rw [← hbytes]
    rfl
  rw [lossy, hbytes, hsize, lossyChars_flatMap s.toList (Nat.le_refl _), String.ofList_toList]

end TableSnapshots.Text
