import Mathlib.Data.List.Induction
import TableSnapshots.Digest.Hex
import TableSnapshots.Proofs.Text.Decimal

/-!
# Digits of a fixed width

The text of a digest is the only one with 32 hexadecimal digits in lower case that are those of its
number (`spells_iff_eq_hex`). Leading zeros are digits as well, so no two digests have one text
(`hex_injective`).
-/

namespace TableSnapshots.Digest

/-! ## Digits and their values -/

/-- Whether a character is a hexadecimal digit in lower case. -/
def isHexDigit (c : Char) : Bool :=
  Text.isDigit c || ('a' ≤ c && c ≤ 'f')

/-- The value of a hexadecimal digit. -/
def hexDigitValue (c : Char) : Nat :=
  if Text.isDigit c then Text.digitValue c else c.toNat - 'a'.toNat + 10

/-- The number that hexadecimal digits write, the most significant digit first. -/
def hexNumber (cs : List Char) : Nat :=
  cs.foldl (fun n c => 16 * n + hexDigitValue c) 0

/-- Every number below sixteen has a digit with its value. -/
theorem hexDigit_spec :
    ∀ n < 16, isHexDigit (hexDigit n) = true ∧ hexDigitValue (hexDigit n) = n := by
  decide

/-- Every digit is that of its value. -/
theorem hexDigit_hexDigitValue {c : Char} (h : isHexDigit c = true) :
    hexDigitValue c < 16 ∧ hexDigit (hexDigitValue c) = c := by
  unfold hexDigitValue hexDigit
  split
  · next hdecimal =>
    obtain ⟨hlow, hhigh⟩ := Text.toNat_of_isDigit hdecimal
    have hvalue : Text.digitValue c = c.toNat - 48 := rfl
    have hback : '0'.toNat + (c.toNat - 48) = c.toNat := by
      change 48 + (c.toNat - 48) = c.toNat
      omega
    rw [hvalue, if_pos (by omega), hback]
    exact ⟨by omega, Char.ofNat_toNat c⟩
  · next hletter =>
    rw [isHexDigit, Bool.eq_false_iff.mpr hletter, Bool.false_or, Bool.and_eq_true,
      decide_eq_true_eq, decide_eq_true_eq] at h
    have hlow : 97 ≤ c.toNat := UInt32.le_iff_toNat_le.mp h.1
    have hhigh : c.toNat ≤ 102 := UInt32.le_iff_toNat_le.mp h.2
    have hvalue : c.toNat - 'a'.toNat + 10 = c.toNat - 97 + 10 := rfl
    have hback : 'a'.toNat + (c.toNat - 97 + 10 - 10) = c.toNat := by
      change 97 + (c.toNat - 97 + 10 - 10) = c.toNat
      omega
    rw [hvalue, if_neg (by omega), hback]
    exact ⟨by omega, Char.ofNat_toNat c⟩

/-- One digit more is the least significant one. -/
theorem hexNumber_concat (cs : List Char) (c : Char) :
    hexNumber (cs ++ [c]) = 16 * hexNumber cs + hexDigitValue c := by
  unfold hexNumber
  rw [List.foldl_append, List.foldl_cons, List.foldl_nil]

/-! ## The last digits of a number -/

/-- There are as many digits as asked for. -/
theorem length_hexDigits (width n : Nat) : (hexDigits width n).length = width := by
  induction width generalizing n with
  | zero => rfl
  | succ width ih => rw [hexDigits, List.length_append, ih, List.length_singleton]

/-- They are digits. -/
theorem isHexDigit_of_mem_hexDigits {width n : Nat} {c : Char} (h : c ∈ hexDigits width n) :
    isHexDigit c = true := by
  induction width generalizing n with
  | zero => cases h
  | succ width ih =>
    rw [hexDigits, List.mem_append, List.mem_singleton] at h
    rcases h with h | rfl
    · exact ih h
    · exact (hexDigit_spec (n % 16) (Nat.mod_lt n (by decide))).1

/-- They write the number without its digits further in front. -/
theorem hexNumber_hexDigits (width n : Nat) :
    hexNumber (hexDigits width n) = n % Nat.pow 16 width := by
  induction width generalizing n with
  | zero => exact (Nat.mod_one n).symm
  | succ width ih =>
    have hlast := (hexDigit_spec (n % 16) (Nat.mod_lt n (by decide))).2
    have hpow : 16 * Nat.pow 16 width = Nat.pow 16 (width + 1) := Nat.mul_comm _ _
    calc hexNumber (hexDigits (width + 1) n)
        = 16 * hexNumber (hexDigits width (n / 16)) + hexDigitValue (hexDigit (n % 16)) :=
          hexNumber_concat _ _
      _ = n % 16 + 16 * (n / 16 % Nat.pow 16 width) := by rw [ih, hlast, Nat.add_comm]
      _ = n % Nat.pow 16 (width + 1) := by rw [← Nat.mod_mul, hpow]

/-- Digits are those of the number that they write, in their own width. -/
theorem hexDigits_hexNumber {cs : List Char} (h : ∀ c ∈ cs, isHexDigit c = true) :
    hexDigits cs.length (hexNumber cs) = cs := by
  -- The last digit is the remainder by sixteen, so the induction is on the digits before it.
  induction cs using List.reverseRecOn with
  | nil => rfl
  | append_singleton cs c ih =>
    have hbefore := ih fun c' hc' => h c' (List.mem_append_left _ hc')
    obtain ⟨hsmall, hdigit⟩ := hexDigit_hexDigitValue
      (h c (List.mem_append_right _ (List.mem_singleton_self c)))
    have hquotient : (16 * hexNumber cs + hexDigitValue c) / 16 = hexNumber cs := by omega
    have hremainder : (16 * hexNumber cs + hexDigitValue c) % 16 = hexDigitValue c := by omega
    rw [List.length_append, List.length_singleton, hexNumber_concat, hexDigits, hquotient,
      hremainder, hbefore, hdigit]

/-! ## The text of a digest -/

/-- A text spells a digest of 128 bits with all its digits. -/
structure Spells (text : String) (d : BitVec 128) : Prop where
  /-- It has 32 characters. -/
  length : text.length = 32
  /-- They are hexadecimal digits in lower case. -/
  isHexDigit : ∀ c ∈ text.toList, isHexDigit c = true
  /-- Read as a number they give back the digest. -/
  number : hexNumber text.toList = d.toNat

/-- The text of a digest spells it. -/
theorem spells_hex (d : BitVec 128) : Spells (hex d) d := by
  have hbound : d.toNat < Nat.pow 16 32 := d.isLt
  refine ⟨?_, fun c hc => ?_, ?_⟩
  · rw [hex, String.length_ofList, length_hexDigits]
  · rw [hex, String.toList_ofList] at hc
    exact isHexDigit_of_mem_hexDigits hc
  · rw [hex, String.toList_ofList, hexNumber_hexDigits, Nat.mod_eq_of_lt hbound]

/-- Zeros in front are written. -/
example : hex 0xab#128 = "000000000000000000000000000000ab" := by decide +kernel

/-- A digest is spelled by its own text alone. -/
theorem spells_iff_eq_hex {text : String} {d : BitVec 128} : Spells text d ↔ text = hex d := by
  constructor
  · intro h
    have hlength : text.toList.length = 32 := h.length
    have hdigits := hexDigits_hexNumber h.isHexDigit
    rw [hlength, h.number] at hdigits
    rw [hex, hdigits, String.ofList_toList]
  · rintro rfl
    exact spells_hex d

/-- Different digests have different texts. -/
theorem hex_injective {d d' : BitVec 128} (h : hex d = hex d') : d = d' := by
  have hnumber := (spells_hex d).number
  rw [h, (spells_hex d').number] at hnumber
  exact (BitVec.eq_of_toNat_eq hnumber).symm

end TableSnapshots.Digest
