import TableSnapshots.Json.Value
import TableSnapshots.Proofs.Json.Spelling

/-!
# Quoted texts

What is written in quotes for a text is one of its spellings (`spells_quote`): each character is
written as one escape or as itself. No spelling of a character has a character below the blank in
it, so no line break either, and neither has a quoted text (`le_toNat_of_mem_quote`).
-/

namespace TableSnapshots.Json

open Digest (hexDigit hexDigits)

/-! ## Characters -/

/-- The digits of a number are a spelling of it. -/
theorem spellsUnit_hexDigits (n : Nat) : SpellsUnit n (hexDigits 4 n) :=
  ⟨_, _, _, _, .inl rfl, .inl rfl, .inl rfl, .inl rfl, rfl⟩

/-- What is written for a character is a spelling of it. -/
theorem spellsChar_escapeChar (c : Char) : SpellsChar c (escapeChar c) := by
  unfold escapeChar
  by_cases hquote : c = '"'
  · rw [if_pos hquote, hquote]
    exact .short (by decide)
  rw [if_neg hquote]
  by_cases hbackslash : c = '\\'
  · rw [if_pos hbackslash, hbackslash]
    exact .short (by decide)
  rw [if_neg hbackslash]
  split
  · next h => exact h ▸ .short (by decide)
  split
  · next h => exact h ▸ .short (by decide)
  split
  · next h => exact h ▸ .short (by decide)
  split
  · next h => exact h ▸ .short (by decide)
  split
  · next h => exact h ▸ .short (by decide)
  -- The control characters that have no letter are written by number.
  split
  · next h => exact .unit (by omega) (spellsUnit_hexDigits c.toNat)
  · next h => exact .plain hquote hbackslash (Nat.not_lt.mp h)

/-- A digit of either case is above the control characters. -/
theorem SpellsUnit.le_toNat {n : Nat} {ds : List Char} (h : SpellsUnit n ds) {d : Char}
    (hd : d ∈ ds) : 32 ≤ d.toNat := by
  have hall : ∀ k < 16, 32 ≤ (hexDigit k).toNat ∧ 32 ≤ (hexDigit k).toUpper.toNat := by decide
  have hdigit : ∀ {k c}, SpellsDigit (k % 16) c → 32 ≤ c.toNat := by
    rintro k c (rfl | rfl)
    · exact (hall (k % 16) (Nat.mod_lt k (by decide))).1
    · exact (hall (k % 16) (Nat.mod_lt k (by decide))).2
  obtain ⟨w, x, y, z, hw, hx, hy, hz, rfl⟩ := h
  simp only [List.mem_cons, List.not_mem_nil, or_false] at hd
  rcases hd with rfl | rfl | rfl | rfl
  · exact hdigit hw
  · exact hdigit hx
  · exact hdigit hy
  · exact hdigit hz

/-- No spelling of a character has a character below the blank in it. -/
theorem SpellsChar.le_toNat {c : Char} {xs : List Char} (h : SpellsChar c xs) {d : Char}
    (hd : d ∈ xs) : 32 ≤ d.toNat := by
  have hmark : ∀ e, e = '\\' ∨ e = 'u' → 32 ≤ e.toNat := by
    rintro e (rfl | rfl) <;> decide
  cases h with
  | plain _ _ low => rwa [List.mem_singleton.mp hd]
  | @short e letter =>
    have hall : ∀ p ∈ shortEscapes, 32 ≤ p.1.toNat := by decide
    rw [List.mem_cons, List.mem_singleton] at hd
    rcases hd with rfl | rfl
    · decide
    · exact hall (d, c) letter
  | unit _ digits =>
    rw [List.mem_cons, List.mem_cons, ← or_assoc] at hd
    exact hd.elim (hmark d) digits.le_toNat
  | pair _ first second =>
    rw [List.mem_cons, List.mem_cons, List.mem_append, List.mem_cons, List.mem_cons] at hd
    rcases hd with hd | hd | hd | hd | hd | hd
    · exact hmark d (.inl hd)
    · exact hmark d (.inr hd)
    · exact first.le_toNat hd
    · exact hmark d (.inl hd)
    · exact hmark d (.inr hd)
    · exact second.le_toNat hd

/-! ## Texts -/

/-- What is written for some characters spells them. -/
theorem spellsChars_flatMap (cs : List Char) : SpellsChars cs (cs.flatMap escapeChar) := by
  induction cs with
  | nil => exact .nil
  | cons c cs ih => exact .cons (spellsChar_escapeChar c) ih

/-- The characters of a quoted text. -/
theorem toList_quote (s : String) :
    (quote s).toList = '"' :: (s.toList.flatMap escapeChar ++ ['"']) := by
  unfold quote
  rw [String.toList_ofList]
  rfl

/-- A quoted text is a spelling of it. -/
theorem spells_quote (s : String) : Spells (.text (some s)) (quote s).toList := by
  rw [toList_quote]
  exact .text (spellsChars_flatMap s.toList)

/-- Nothing below the blank is written. -/
theorem le_toNat_of_mem_quote {s : String} {d : Char} (h : d ∈ (quote s).toList) :
    32 ≤ d.toNat := by
  rw [toList_quote, List.mem_cons, List.mem_append, List.mem_flatMap, List.mem_singleton] at h
  rcases h with rfl | ⟨c, -, hc⟩ | rfl
  · decide
  · exact (spellsChar_escapeChar c).le_toNat hc
  · decide

end TableSnapshots.Json
