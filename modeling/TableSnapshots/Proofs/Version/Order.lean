import Mathlib.Data.List.DropRight
import TableSnapshots.Version

/-!
# The order of versions

Comparing two versions is comparing their numbers as lists of one length, after zeros were appended
to the shorter one (`compare_eq_compare_rightpad`). The laws of the order are those of the order of
lists, as long as one length serves all versions in question. Zeros at the end are all that versions
may differ in and be the same (`compare_eq_eq_iff`), and appending some changes nothing
(`compare_append_zeros`).
-/

namespace TableSnapshots.EngineVersion

/-! ## Zeros at the end -/

/-- Padding a list to a greater length pads what comes after its first number. -/
theorem rightpad_cons (n m : Nat) (as : List Nat) :
    (m :: as).rightpad (n + 1) 0 = m :: as.rightpad n 0 := by
  simp [List.rightpad]

/-- Padding nothing gives zeros. -/
theorem rightpad_nil_succ (n : Nat) :
    ([] : List Nat).rightpad (n + 1) 0 = 0 :: ([] : List Nat).rightpad n 0 := by
  simp [List.rightpad, List.replicate_succ]

/-- Zeros at the end are dropped from the end. -/
theorem rdropWhile_append_zeros (as : List Nat) (k : Nat) :
    (as ++ List.replicate k 0).rdropWhile (· = 0) = as.rdropWhile (· = 0) := by
  induction k with
  | zero => rw [List.replicate_zero, List.append_nil]
  | succ k ih =>
    rw [List.replicate_succ', ← List.append_assoc, List.rdropWhile_concat_pos _ _ _ (by simp), ih]

/-- What is dropped from the end are zeros. -/
theorem exists_eq_append_zeros (as : List Nat) :
    ∃ k, as = as.rdropWhile (· = 0) ++ List.replicate k 0 := by
  refine ⟨(as.rtakeWhile (· = 0)).length, ?_⟩
  have hzeros : as.rtakeWhile (· = 0) = List.replicate (as.rtakeWhile (· = 0)).length 0 :=
    List.eq_replicate_iff.mpr ⟨rfl, fun m hm => by simpa using List.mem_rtakeWhile_imp hm⟩
  rw [← hzeros, List.rdropWhile_append_rtakeWhile]

/-- A padded list is what is left of it after its zeros were dropped, and zeros again. -/
theorem rightpad_eq {as : List Nat} {n : Nat} (h : as.length ≤ n) :
    as.rightpad n 0
      = as.rdropWhile (· = 0) ++ List.replicate (n - (as.rdropWhile (· = 0)).length) 0 := by
  obtain ⟨k, hk⟩ := exists_eq_append_zeros as
  have hlength := congrArg List.length hk
  rw [List.length_append, List.length_replicate] at hlength
  calc as.rightpad n 0
      = (as.rdropWhile (· = 0) ++ List.replicate k 0) ++ List.replicate (n - as.length) 0 := by
        rw [← hk]
        rfl
    _ = as.rdropWhile (· = 0) ++ List.replicate (k + (n - as.length)) 0 := by
        rw [List.append_assoc, List.replicate_append_replicate]
    _ = as.rdropWhile (· = 0) ++ List.replicate (n - (as.rdropWhile (· = 0)).length) 0 := by
        rw [show k + (n - as.length) = n - (as.rdropWhile (· = 0)).length by omega]

/-! ## Comparing at one length -/

/-- Numbers are compared as lists of one length that is enough for both. -/
theorem compareNumbers_eq_compare_rightpad {as bs : List Nat} {n : Nat} (has : as.length ≤ n)
    (hbs : bs.length ≤ n) : compareNumbers as bs = compare (as.rightpad n 0) (bs.rightpad n 0) := by
  fun_induction compareNumbers as bs generalizing n with
  | case1 => exact Std.ReflCmp.compare_self.symm
  | case2 a as ih =>
    cases n with
    | zero => exact absurd has (Nat.not_succ_le_zero as.length)
    | succ n =>
      rw [rightpad_cons, rightpad_nil_succ, List.compare_cons_cons,
        ih (Nat.le_of_succ_le_succ has) (Nat.zero_le n)]
  | case3 b bs ih =>
    cases n with
    | zero => exact absurd hbs (Nat.not_succ_le_zero bs.length)
    | succ n =>
      rw [rightpad_cons, rightpad_nil_succ, List.compare_cons_cons,
        ih (Nat.zero_le n) (Nat.le_of_succ_le_succ hbs)]
  | case4 a as b bs ih =>
    cases n with
    | zero => exact absurd has (Nat.not_succ_le_zero as.length)
    | succ n =>
      rw [rightpad_cons, rightpad_cons, List.compare_cons_cons,
        ih (Nat.le_of_succ_le_succ has) (Nat.le_of_succ_le_succ hbs)]

/-- So are versions. -/
theorem compare_eq_compare_rightpad (a b : EngineVersion) {n : Nat}
    (ha : a.components.length ≤ n) (hb : b.components.length ≤ n) :
    compare a b = compare (a.components.rightpad n 0) (b.components.rightpad n 0) :=
  compareNumbers_eq_compare_rightpad ha hb

/-! ## The laws of the order -/

/-- Versions are ordered as lists of numbers are: one length is enough for two or three of them. -/
instance : Std.TransOrd EngineVersion where
  eq_swap {a b} := by
    have ha := Nat.le_max_left a.components.length b.components.length
    have hb := Nat.le_max_right a.components.length b.components.length
    rw [compare_eq_compare_rightpad a b ha hb, compare_eq_compare_rightpad b a hb ha]
    exact Std.OrientedCmp.eq_swap
  isLE_trans {a b c} hab hbc := by
    let n := a.components.length + b.components.length + c.components.length
    have ha : a.components.length ≤ n := by omega
    have hb : b.components.length ≤ n := by omega
    have hc : c.components.length ≤ n := by omega
    rw [compare_eq_compare_rightpad _ _ ha hb] at hab
    rw [compare_eq_compare_rightpad _ _ hb hc] at hbc
    rw [compare_eq_compare_rightpad _ _ ha hc]
    exact Std.TransCmp.isLE_trans hab hbc

/-- Versions are the same if their numbers are, but for zeros at the end. -/
theorem compare_eq_eq_iff {a b : EngineVersion} :
    compare a b = .eq ↔ a.components.rdropWhile (· = 0) = b.components.rdropWhile (· = 0) := by
  have ha := Nat.le_max_left a.components.length b.components.length
  have hb := Nat.le_max_right a.components.length b.components.length
  rw [compare_eq_compare_rightpad a b ha hb, Std.LawfulEqOrd.compare_eq_iff_eq]
  constructor
  · intro hpadded
    have hdropped := congrArg (List.rdropWhile (· = 0)) hpadded
    unfold List.rightpad at hdropped
    rwa [rdropWhile_append_zeros, rdropWhile_append_zeros] at hdropped
  · intro hdropped
    rw [rightpad_eq ha, rightpad_eq hb, hdropped]

/-- Being the same is told by the comparison. -/
theorem beq_iff_compare {a b : EngineVersion} : (a == b) = true ↔ compare a b = .eq := by
  change (compare a b == .eq) = true ↔ _
  exact beq_iff_eq

/-- Not exceeding is told by the comparison. -/
theorem le_iff_isLE {a b : EngineVersion} : a ≤ b ↔ (compare a b).isLE = true :=
  Ordering.isLE_iff_ne_gt.symm

/-- The comparison the other way round. -/
theorem compare_swap (a b : EngineVersion) : compare a b = (compare b a).swap :=
  Std.OrientedCmp.eq_swap

/-- Being greater is told by the comparison. -/
theorem gt_iff_compare {a b : EngineVersion} : a > b ↔ compare a b = .gt := by
  change compare b a = .lt ↔ _
  rw [compare_swap a b, Ordering.swap_eq_gt]

/-- Zeros at the end change no comparison. -/
theorem compare_append_zeros (a b : EngineVersion) (zeros : Nat) (text : String) :
    compare ⟨a.components ++ List.replicate zeros 0, text⟩ b = compare a b := by
  have hsame : compare (EngineVersion.mk (a.components ++ List.replicate zeros 0) text) a = .eq :=
    compare_eq_eq_iff.mpr (rdropWhile_append_zeros a.components zeros)
  exact Std.TransCmp.congr_left hsame

/-- Versions are compared as their numbers are, one list after zeros were appended to the shorter
one. This orders them totally, and those are the same whose numbers are, but for zeros at the
end. -/
theorem ordered_as_padded_numbers (a b c : EngineVersion) :
    (∀ n, a.components.length ≤ n → b.components.length ≤ n →
      compare a b = compare (a.components.rightpad n 0) (b.components.rightpad n 0)) ∧
    compare a b = (compare b a).swap ∧
    (a ≤ b → b ≤ c → a ≤ c ∧ (a < b ∨ b < c → a < c)) ∧
    ((a == b) = true ↔ a.components.rdropWhile (· = 0) = b.components.rdropWhile (· = 0)) ∧
    ((a == b) = true → compare a c = compare b c ∧ compare c a = compare c b) ∧
    (∀ zeros text,
      compare ⟨a.components ++ List.replicate zeros 0, text⟩ b = compare a b ∧
      compare b ⟨a.components ++ List.replicate zeros 0, text⟩ = compare b a) ∧
    (a < b ∧ (a == b) = false ∧ ¬ a > b ∨ ¬ a < b ∧ (a == b) = true ∧ ¬ a > b ∨
      ¬ a < b ∧ (a == b) = false ∧ a > b) ∧
    (a ≥ b ↔ ¬ a < b) := by
  refine ⟨fun n ha hb => compare_eq_compare_rightpad a b ha hb, compare_swap a b, ?_, ?_, ?_, ?_,
    ?_, ?_⟩
  · intro hab hbc
    rw [le_iff_isLE] at *
    refine ⟨Std.TransCmp.isLE_trans hab hbc, ?_⟩
    rintro (hlt | hlt)
    · exact Std.TransCmp.lt_of_lt_of_isLE hlt hbc
    · exact Std.TransCmp.lt_of_isLE_of_lt hab hlt
  · rw [beq_iff_compare, compare_eq_eq_iff]
  · intro hsame
    rw [beq_iff_compare] at hsame
    exact ⟨Std.TransCmp.congr_left hsame, Std.TransCmp.congr_right hsame⟩
  · intro zeros text
    have hzeros := compare_append_zeros a b zeros text
    exact ⟨hzeros, by rw [compare_swap b, hzeros, ← compare_swap]⟩
  · change compare a b = .lt ∧ (compare a b == .eq) = false ∧ _ ∨
      ¬ compare a b = .lt ∧ (compare a b == .eq) = true ∧ _ ∨
      ¬ compare a b = .lt ∧ (compare a b == .eq) = false ∧ _
    rw [gt_iff_compare]
    cases compare a b <;> decide
  · change compare b a ≠ .gt ↔ ¬ compare a b = .lt
    rw [compare_swap a b, Ordering.swap_eq_lt]

/-- A release is not above its first build, which comes before the release of the next year. -/
theorem ordered_as_padded_numbers_release :
    EngineVersion.mk [18, 16] "18.16" ≤ ⟨[18, 16, 0], "18.16.0"⟩ ∧
    EngineVersion.mk [18, 16, 0] "18.16.0" < ⟨[19, 1], "19.1"⟩ ∧
    EngineVersion.mk [18, 16] "18.16" < ⟨[19, 1], "19.1"⟩ := by
  have hle : EngineVersion.mk [18, 16] "18.16" ≤ ⟨[18, 16, 0], "18.16.0"⟩ := by
    change compareNumbers [18, 16] [18, 16, 0] ≠ .gt
    simp [compareNumbers]
  have hlt : EngineVersion.mk [18, 16, 0] "18.16.0" < ⟨[19, 1], "19.1"⟩ := by
    change compareNumbers [18, 16, 0] [19, 1] = .lt
    rw [compareNumbers]
    rfl
  have hle' : EngineVersion.mk [18, 16, 0] "18.16.0" ≤ ⟨[19, 1], "19.1"⟩ := fun hgt => by
    cases hlt.symm.trans hgt
  exact ⟨hle, hlt, ((ordered_as_padded_numbers _ _ _).2.2.1 hle hle').2 (.inr hlt)⟩

end TableSnapshots.EngineVersion
