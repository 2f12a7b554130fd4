import TableSnapshots.Text.Blank
import TableSnapshots.Text.Digits

/-!
# Decimals

The decimal of a number has digits only (`isDigit_of_mem_decimal`), so it has neither a mark nor a
blank in it. It begins with a zero only if it is zero (`exists_decimal_cons`), it tells its number
(`digitsValue_decimal`), and it is read as this if a word can hold it (`readUnsigned?_decimal`). No
other spelling of the number is shorter (`shortest_decimal`).
-/

namespace TableSnapshots.Text

/-! ## Digits -/

/-- The digits are next to each other. -/
theorem toNat_of_isDigit {c : Char} (h : isDigit c = true) : 48 ≤ c.toNat ∧ c.toNat ≤ 57 := by
  unfold isDigit at h
  rw [Bool.and_eq_true, decide_eq_true_eq, decide_eq_true_eq] at h
  exact ⟨UInt32.le_iff_toNat_le.mp h.1, UInt32.le_iff_toNat_le.mp h.2⟩

/-- No range of blanks meets them. -/
theorem isBlank_of_isDigit {c : Char} (h : isDigit c = true) : isBlank c = false := by
  obtain ⟨hlow, hhigh⟩ := toNat_of_isDigit h
  unfold isBlank blankRanges
  simp only [List.any_cons, List.any_nil, Bool.or_false, Bool.or_eq_false_iff,
    Bool.and_eq_false_iff, decide_eq_false_iff_not]
  omega

/-! ## The digits of a decimal -/

/-- A decimal has digits only. -/
theorem isDigit_of_mem_decimal {n : Nat} {c : Char} (h : c ∈ (decimal n).toList) :
    isDigit c = true := by
  rw [decimal, String.toList_ofList] at h
  have hdigit := Nat.isDigit_of_mem_toDigits (by decide) (by decide) h
  rw [Char.isDigit, Bool.and_eq_true, decide_eq_true_eq, decide_eq_true_eq] at hdigit
  unfold isDigit
  rw [Bool.and_eq_true, decide_eq_true_eq, decide_eq_true_eq]
  exact hdigit

/-- So nothing else is in it. -/
theorem not_mem_decimal {c : Char} (h : isDigit c = false) (n : Nat) : c ∉ (decimal n).toList := by
  intro hmem
  rw [isDigit_of_mem_decimal hmem] at h
  cases h

/-- It has at least one digit. -/
theorem toList_decimal_ne_nil (n : Nat) : (decimal n).toList ≠ [] := by
  rw [decimal, String.toList_ofList]
  exact Nat.toDigits_ne_nil

/-- It begins with a zero only if it is zero. -/
theorem exists_decimal_cons {n : Nat} (hn : n ≠ 0) :
    ∃ c cs, (decimal n).toList = c :: cs ∧ c ≠ '0' := by
  rw [decimal, String.toList_ofList]
  induction n using Nat.strongRecOn with
  | _ n ih =>
    by_cases hlow : n < 10
    · have hdigit : ∀ d < 10, d ≠ 0 → Nat.digitChar d ≠ '0' := by decide
      exact ⟨n.digitChar, [], Nat.toDigits_of_lt_base hlow, hdigit n hlow hn⟩
    · obtain ⟨c, cs, hc, hne⟩ := ih (n / 10) (by omega) (by omega)
      refine ⟨c, cs ++ [(n % 10).digitChar], ?_, hne⟩
      rw [Nat.toDigits_of_base_le (by decide) (Nat.not_lt.mp hlow), hc, List.cons_append]

/-! ## Its number -/

/-- The digits of a decimal write its number. -/
theorem digitsValue_decimal (n : Nat) : digitsValue (decimal n).toList = n := by
  have hfold : digitsValue (Nat.toDigits 10 n) = Nat.ofDigitChars 10 (Nat.toDigits 10 n) 0 :=
    Nat.ofDigitChars_eq_foldl.symm
  rw [decimal, String.toList_ofList, hfold, Nat.ofDigitChars_ten_toDigits]

/-- So no other number has it. -/
theorem decimal_injective {m n : Nat} (h : decimal m = decimal n) : m = n := by
  rw [← digitsValue_decimal m, h, digitsValue_decimal]

/-- A decimal is read as its number if a word can hold it. -/
theorem readUnsigned?_decimal {bits n : Nat} (h : n < wordCount bits) :
    readUnsigned? bits (decimal n).toList = some n := by
  have hdigits : readDigits? bits (decimal n).toList = some n := by
    unfold readDigits?
    rw [digitsValue_decimal, if_pos]
    simp only [Bool.and_eq_true, Bool.not_eq_true', List.isEmpty_eq_false_iff, List.all_eq_true,
      decide_eq_true_eq]
    exact ⟨⟨toList_decimal_ne_nil n, fun c hc => isDigit_of_mem_decimal hc⟩, h⟩
  unfold readUnsigned?
  split
  · next digits hplus =>
    have hmem : '+' ∈ (decimal n).toList := by
      rw [hplus]
      exact List.mem_cons_self
    exact absurd hmem (not_mem_decimal rfl n)
  · exact hdigits

/-! ## Its shape -/

/-- The shortest spelling of a number. -/
structure Shortest (s : String) (n : Nat) : Prop where
  /-- It is not empty. -/
  ne_nil : s.toList ≠ []
  /-- It has digits only, and no plus. -/
  isDigit : ∀ c ∈ s.toList, isDigit c = true
  /-- They are those of the number. -/
  value : digitsValue s.toList = n
  /-- Nothing follows a zero at the start. -/
  lead : ∀ cs, s.toList = '0' :: cs → cs = []

/-- It is the decimal. -/
theorem shortest_decimal (n : Nat) : Shortest (decimal n) n where
  ne_nil := toList_decimal_ne_nil n
  isDigit := fun _ hc => isDigit_of_mem_decimal hc
  value := digitsValue_decimal n
  lead := by
    intro cs hcs
    by_cases hn : n = 0
    · subst hn
      exact (List.cons.inj hcs).2.symm
    · obtain ⟨c, ds, hds, hc⟩ := exists_decimal_cons hn
      exact absurd (List.cons.inj (hds.symm.trans hcs)).1 hc

end TableSnapshots.Text
