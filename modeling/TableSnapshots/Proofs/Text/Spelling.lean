import TableSnapshots.Proofs.Text.Blank
import TableSnapshots.Proofs.Text.Decimal

/-!
# Spellings of numbers

A number in a file that is also written by hand: digits, with zeros before them or not, with a plus
before that or not, and with blanks around (`Spelling`). What is read from a text without the blanks
around it is the number that the text spells, if a word can hold it, and there is none in a text
that spells no number (`readUnsigned?_trimChars_eq_some_iff`).
-/

namespace TableSnapshots.Text

/-- A spelling of a number. -/
structure Spelling where
  /-- Blanks before the number. -/
  before : List Char
  /-- Whether a plus comes before the digits. -/
  plus : Bool
  /-- The digits, the most significant one first. Zeros may come before them. -/
  digits : List Char
  /-- Blanks after the number, such as the end of a line. -/
  after : List Char
  blank_before : ∀ c ∈ before, isBlank c = true
  blank_after : ∀ c ∈ after, isBlank c = true
  digits_ne_nil : digits ≠ []
  isDigit_digits : ∀ c ∈ digits, isDigit c = true

namespace Spelling

/-- The number without the blanks around it. -/
def core (m : Spelling) : List Char :=
  if m.plus then '+' :: m.digits else m.digits

/-- The text. -/
def text (m : Spelling) : String :=
  String.ofList (m.before ++ m.core ++ m.after)

/-- The number that is spelled. -/
def number (m : Spelling) : Nat :=
  digitsValue m.digits

/-- The spelling that programs write, with blanks around. -/
def ofDecimal (n : Nat) {before after : List Char} (hbefore : ∀ c ∈ before, isBlank c = true)
    (hafter : ∀ c ∈ after, isBlank c = true) : Spelling where
  before := before
  plus := false
  digits := (decimal n).toList
  after := after
  blank_before := hbefore
  blank_after := hafter
  digits_ne_nil := toList_decimal_ne_nil n
  isDigit_digits := fun _ hc => isDigit_of_mem_decimal hc

/-- The decimal of a number spells it. -/
@[simp]
theorem number_ofDecimal (n : Nat) {before after : List Char}
    (hbefore : ∀ c ∈ before, isBlank c = true) (hafter : ∀ c ∈ after, isBlank c = true) :
    (ofDecimal n hbefore hafter).number = n :=
  digitsValue_decimal n

/-- Neither a plus nor a digit is a blank. -/
theorem isBlank_of_mem_core (m : Spelling) {c : Char} (h : c ∈ m.core) : isBlank c = false := by
  have hdigits : ∀ d ∈ m.digits, isBlank d = false := fun d hd =>
    isBlank_of_isDigit (m.isDigit_digits d hd)
  unfold core at h
  split at h
  · rcases List.mem_cons.mp h with rfl | hmem
    · rfl
    · exact hdigits c hmem
  · exact hdigits c h

/-- So the number is what is left of the text without the blanks around it. -/
theorem trimChars_text (m : Spelling) : trimChars m.text.toList = m.core := by
  rw [text, String.toList_ofList, trimChars_append_blanks m.blank_before m.core m.blank_after]
  exact trimChars_eq_self fun c hc => m.isBlank_of_mem_core hc

end Spelling

/-! ## Reading -/

/-- Digits are read as their number if a word can hold it, and nothing else is read. -/
theorem readDigits?_eq_some_iff {bits n : Nat} {cs : List Char} :
    readDigits? bits cs = some n
      ↔ cs ≠ [] ∧ (∀ c ∈ cs, isDigit c = true) ∧ digitsValue cs = n ∧ n < wordCount bits := by
  unfold readDigits?
  rw [Option.ite_none_right_eq_some, Bool.and_eq_true, Bool.and_eq_true, Bool.not_eq_true',
    List.isEmpty_eq_false_iff, List.all_eq_true, decide_eq_true_eq, Option.some.injEq]
  constructor
  · rintro ⟨⟨⟨hne, hdigits⟩, hbound⟩, rfl⟩
    exact ⟨hne, hdigits, rfl, hbound⟩
  · rintro ⟨hne, hdigits, rfl, hbound⟩
    exact ⟨⟨⟨hne, hdigits⟩, hbound⟩, rfl⟩

/-- The number of a spelling is read if a word can hold it. -/
theorem readUnsigned?_core {bits : Nat} (m : Spelling) (h : m.number < wordCount bits) :
    readUnsigned? bits m.core = some m.number := by
  have hdigits : readDigits? bits m.digits = some m.number :=
    readDigits?_eq_some_iff.mpr ⟨m.digits_ne_nil, m.isDigit_digits, rfl, h⟩
  unfold Spelling.core
  split
  · exact hdigits
  · unfold readUnsigned?
    split
    · next digits hplus =>
      -- The plus would be a digit.
      have hdigit := m.isDigit_digits '+' (hplus ▸ List.mem_cons_self)
      cases hdigit
    · exact hdigits

/-- What is read is spelled, whatever blanks there are around it. -/
theorem exists_spelling_of_readUnsigned? {bits n : Nat} {before core after : List Char}
    (hbefore : ∀ c ∈ before, isBlank c = true) (hafter : ∀ c ∈ after, isBlank c = true)
    (h : readUnsigned? bits core = some n) :
    ∃ m : Spelling, m.text = String.ofList (before ++ core ++ after) ∧ m.number = n ∧
      n < wordCount bits := by
  unfold readUnsigned? at h
  split at h
  · next digits =>
    obtain ⟨hne, hdigits, hvalue, hbound⟩ := readDigits?_eq_some_iff.mp h
    exact ⟨⟨before, true, digits, after, hbefore, hafter, hne, hdigits⟩, rfl, hvalue, hbound⟩
  · obtain ⟨hne, hdigits, hvalue, hbound⟩ := readDigits?_eq_some_iff.mp h
    exact ⟨⟨before, false, core, after, hbefore, hafter, hne, hdigits⟩, rfl, hvalue, hbound⟩

/-- A text is read as a number, without the blanks around it, exactly if it spells the number and a
word can hold it. -/
theorem readUnsigned?_trimChars_eq_some_iff {bits n : Nat} {s : String} :
    readUnsigned? bits (trimChars s.toList) = some n
      ↔ (∃ m : Spelling, m.text = s ∧ m.number = n) ∧ n < wordCount bits := by
  constructor
  · intro h
    obtain ⟨before, after, hs, hbefore, hafter⟩ := exists_blanks s.toList
    obtain ⟨m, htext, hnumber, hbound⟩ := exists_spelling_of_readUnsigned? hbefore hafter h
    rw [← hs, String.ofList_toList] at htext
    exact ⟨⟨m, htext, hnumber⟩, hbound⟩
  · rintro ⟨⟨m, rfl, rfl⟩, hbound⟩
    rw [m.trimChars_text]
    exact readUnsigned?_core m hbound

end TableSnapshots.Text
