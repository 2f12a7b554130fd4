import TableSnapshots.Proofs.Version.Grammar
import TableSnapshots.Proofs.Version.Order

/-!
# Which versions freeze whole tables

The first two numbers of a version decide how tables are frozen (`FreezeStrategy.ofVersion_eq_iff`):
the first version that freezes a whole table has a third number, but it is zero, and no version with
the same two numbers comes before it. A later version never freezes in the older way
(`FreezeStrategy.ofVersion_mono`), and versions that are the same freeze in the same way
(`FreezeStrategy.ofVersion_congr`).
-/

namespace TableSnapshots

namespace EngineVersion

/-- A comparison does not end in excess if the first numbers decide so, or are the same and the
others decide so. -/
theorem then_ne_gt_iff {a b : Nat} {others : Ordering} :
    (compare a b).then others ≠ .gt ↔ a < b ∨ a = b ∧ others ≠ .gt := by
  rcases Nat.lt_trichotomy a b with hlt | heq | hgt
  · have hcompare : compare a b = .lt := Nat.compare_eq_lt.mpr hlt
    simp [hcompare, hlt]
  · simp [heq]
  · have hcompare : compare a b = .gt := Nat.compare_eq_gt.mpr hgt
    have hnot : ¬ (a < b ∨ a = b ∧ others ≠ .gt) := by omega
    simp [hcompare, hnot]

/-- Numbers that start with `a` do not exceed others if `a` is less than the first one of these, or
the same and the rest does not exceed the rest. A number that is not there is a zero. -/
theorem compareNumbers_cons_ne_gt_iff (a : Nat) (as ns : List Nat) :
    compareNumbers (a :: as) ns ≠ .gt ↔
      a < ns.headD 0 ∨ a = ns.headD 0 ∧ compareNumbers as ns.tail ≠ .gt := by
  cases ns with
  | nil =>
    rw [compareNumbers]
    exact then_ne_gt_iff
  | cons n ns =>
    rw [compareNumbers]
    exact then_ne_gt_iff

/-- No numbers at all exceed none. -/
theorem compareNumbers_nil_ne_gt (ns : List Nat) : compareNumbers [] ns ≠ .gt := by
  induction ns with
  | nil => simp [compareNumbers]
  | cons n ns ih =>
    rw [compareNumbers]
    cases n with
    | zero => simpa using ih
    | succ n => simp [Nat.compare_eq_lt.mpr (Nat.succ_pos n)]

/-- A version that was read has a first number. -/
theorem exists_cons_of_parse {s : String} {v : EngineVersion} (h : parse s = .ok v) :
    ∃ first rest, v.components = first :: rest := by
  obtain ⟨runs, hlongest, -, rfl⟩ := parse_eq_ok_iff.mp h
  exact List.exists_cons_of_ne_nil (mt List.map_eq_nil_iff.mp hlongest.ne_nil)

end EngineVersion

namespace FreezeStrategy

open EngineVersion (parse)

variable {a b v : EngineVersion}

/-- Whole tables are frozen from the first version on that can. -/
theorem ofVersion_eq_wholeTable_iff : ofVersion v = .wholeTable ↔ wholeTableSince ≤ v := by
  unfold ofVersion
  split <;> simp [*]

/-- The first two numbers of a version decide how tables are frozen, whatever comes after them. -/
theorem ofVersion_eq_iff {first : Nat} {rest : List Nat} (h : v.components = first :: rest) :
    ofVersion v = .wholeTable ↔ 18 < first ∨ first = 18 ∧ 16 ≤ rest.headD 0 := by
  have hle : wholeTableSince ≤ v ↔ EngineVersion.compareNumbers [18, 16, 0] (first :: rest) ≠ .gt :=
    h ▸ Iff.rfl
  rw [ofVersion_eq_wholeTable_iff, hle, EngineVersion.compareNumbers_cons_ne_gt_iff,
    EngineVersion.compareNumbers_cons_ne_gt_iff, EngineVersion.compareNumbers_cons_ne_gt_iff]
  -- The third number is at least zero, and nothing is asked of the others.
  have hrest := EngineVersion.compareNumbers_nil_ne_gt rest.tail.tail
  rw [List.headD_cons, List.tail_cons, and_iff_left hrest]
  omega

/-- A later version does not go back to the older way. -/
theorem ofVersion_mono (h : a ≤ b) (ha : ofVersion a = .wholeTable) : ofVersion b = .wholeTable := by
  rw [ofVersion_eq_wholeTable_iff] at *
  rw [EngineVersion.le_iff_isLE] at *
  exact Std.TransCmp.isLE_trans ha h

/-- Versions that are the same freeze in the same way. -/
theorem ofVersion_congr (h : (a == b) = true) : ofVersion a = ofVersion b := by
  rw [EngineVersion.beq_iff_compare] at h
  have hsame : compare wholeTableSince a = compare wholeTableSince b := Std.TransCmp.congr_right h
  unfold ofVersion
  change (if compare wholeTableSince a ≠ .gt then _ else _)
    = if compare wholeTableSince b ≠ .gt then _ else _
  rw [hsame]

/-- The text of a version tells how tables are frozen. -/
theorem ofText_of_parse {s : String} (h : parse s = .ok v) : ofText s = .ok (ofVersion v) := by
  unfold ofText
  rw [h]
  rfl

/-- It tells nothing exactly if no version can be read from it, with the same error. -/
theorem ofText_eq_error_iff {s : String} {e : Error} :
    ofText s = .error e ↔ parse s = .error e := by
  unfold ofText
  cases parse s <;> simp [Except.map]

end FreezeStrategy

end TableSnapshots
