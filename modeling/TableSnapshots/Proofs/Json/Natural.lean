import TableSnapshots.Json.Read
import TableSnapshots.Proofs.Json.Spelling
import TableSnapshots.Proofs.Text.Decimal

/-!
# Whole numbers

The decimal of a natural number spells it as a JSON number (`spells_natural`), and it is taken out
if a word of the asked size can hold it (`toUnsigned_natural`). A whole number that no such word can
hold is refused, however it is kept while it is read (`toUnsigned_of_beyond`).
-/

namespace TableSnapshots.Json

/-! ## Digits -/

/-- What is put before digits makes their number no smaller. -/
theorem le_foldl_digitValue (cs : List Char) (m : Nat) :
    m ≤ cs.foldl (fun n c => 10 * n + Text.digitValue c) m := by
  induction cs generalizing m with
  | nil => exact Nat.le_refl m
  | cons c cs ih =>
    have hnext := ih (10 * m + Text.digitValue c)
    rw [List.foldl_cons]
    omega

/-- Digits of a number that fits are all taken. -/
theorem takeDigits_of_lt {cs : List Char} {m : Nat}
    (h : cs.foldl (fun n c => 10 * n + Text.digitValue c) m < wordCount 64) :
    Numeral.takeDigits m cs = (cs.foldl (fun n c => 10 * n + Text.digitValue c) m, []) := by
  induction cs generalizing m with
  | nil => rfl
  | cons c cs ih =>
    rw [List.foldl_cons] at h ⊢
    have hfits : 10 * m + Text.digitValue c < wordCount 64 :=
      Nat.lt_of_le_of_lt (le_foldl_digitValue cs _) h
    rw [Numeral.takeDigits, if_pos hfits, ih h]

/-- If all digits are taken, then they make their number. -/
theorem eq_foldl_of_takeDigits {cs : List Char} {m v : Nat}
    (h : Numeral.takeDigits m cs = (v, [])) :
    v = cs.foldl (fun n c => 10 * n + Text.digitValue c) m := by
  induction cs generalizing m with
  | nil => exact (congrArg Prod.fst h).symm
  | cons c cs ih =>
    rw [Numeral.takeDigits] at h
    split at h
    · exact ih h
    · cases h

/-! ## Numbers that fit -/

/-- The spelling of a natural number. -/
def natural (n : Nat) : Numeral :=
  ⟨false, (Text.decimal n).toList, none, none⟩

/-- It stands for the number if this fits. -/
theorem number?_natural {n : Nat} (h : n < wordCount 64) :
    (natural n).number? = some (.integer n) := by
  have hvalue : (Text.decimal n).toList.foldl (fun n c => 10 * n + Text.digitValue c) 0 = n :=
    Text.digitsValue_decimal n
  have htake : Numeral.takeDigits 0 (natural n).whole = (n, []) := by
    unfold natural
    rw [takeDigits_of_lt (by rwa [hvalue]), hvalue]
  unfold Numeral.number?
  rw [htake]
  rfl

/-- A number that a word of the asked size can hold is taken out. -/
theorem toUnsigned_natural {bits n : Nat} (hbits : bits ≤ 64) (h : n < wordCount bits) :
    (Draft.number (natural n)).toUnsigned bits = .ok n := by
  have hcount : wordCount bits ≤ wordCount 64 := Nat.pow_le_pow_right (by decide) hbits
  unfold Draft.toUnsigned
  dsimp only
  rw [number?_natural (Nat.lt_of_lt_of_le h hcount)]
  exact if_pos (by simp [h])

/-- A decimal spells its number. -/
theorem spells_natural (n : Nat) : Spells (.number (natural n)) (Text.decimal n).toList := by
  have hshortest := Text.shortest_decimal n
  exact spells_digits ⟨⟨hshortest.ne_nil, hshortest.isDigit⟩, hshortest.lead⟩

/-! ## Numbers that do not fit -/

/-- The whole number of the digits before a point, with its sign. -/
def Numeral.integer (n : Numeral) : Int :=
  if n.negative then -(Text.digitsValue n.whole) else Text.digitsValue n.whole

/-- A whole number that no word of `bits` bits can hold. -/
structure Numeral.Beyond (bits : Nat) (n : Numeral) : Prop where
  fraction : n.fraction = none
  exponent : n.exponent = none
  outside : n.integer < 0 ∨ wordCount bits ≤ n.integer

/-- A whole number that stays one keeps its value. -/
theorem integer_of_number? {n : Numeral} (hfraction : n.fraction = none)
    (hexponent : n.exponent = none) {i : Int} (h : n.number? = some (.integer i)) :
    i = n.integer := by
  unfold Numeral.number? at h
  rw [hfraction, hexponent] at h
  dsimp only at h
  cases htake : Numeral.takeDigits 0 n.whole with
  | mk digits dropped =>
  rw [htake] at h
  dsimp only at h
  cases dropped with
  | cons c cs =>
    -- Digits that were dropped make it a floating-point number.
    rw [List.isEmpty_cons, Bool.not_false, if_pos rfl, Option.map_eq_some_iff] at h
    obtain ⟨x, -, hx⟩ := h
    cases hx
  | nil =>
    have hdigits : digits = Text.digitsValue n.whole := eq_foldl_of_takeDigits htake
    rw [List.isEmpty_nil, Bool.not_true, if_neg Bool.false_ne_true, hdigits] at h
    unfold Numeral.integer
    cases hsign : n.negative with
    | false =>
      rw [hsign] at h
      cases h
      rfl
    | true =>
      rw [hsign, Bool.not_true, if_neg Bool.false_ne_true] at h
      split at h
      · cases h
        rfl
      · cases h

/-- A value of another kind is always refused. -/
theorem exists_refuse {α : Type} (expected : String) (d : Draft) :
    ∃ e, (d.refuse expected : Except ReadError α) = .error e := by
  unfold Draft.refuse
  cases d.show? with
  | error e => exact ⟨e, rfl⟩
  | ok found => exact ⟨_, rfl⟩

/-- A whole number that does not fit is refused. -/
theorem toUnsigned_of_beyond {bits : Nat} {n : Numeral} (h : n.Beyond bits) :
    ∃ e, (Draft.number n).toUnsigned bits = .error e := by
  unfold Draft.toUnsigned
  dsimp only
  split
  · next i hi =>
    -- It is kept as a whole number, and then it is compared with the bound.
    have houtside := h.outside
    rw [← integer_of_number? h.fraction h.exponent hi] at houtside
    have hrange : ¬ ((decide (0 ≤ i) && decide (i.toNat < wordCount bits)) = true) := by
      rw [Bool.and_eq_true, decide_eq_true_eq, decide_eq_true_eq]
      omega
    exact ⟨_, if_neg hrange⟩
  · -- It is kept as a floating-point number, which is of another kind.
    exact exists_refuse _ _

end TableSnapshots.Json
