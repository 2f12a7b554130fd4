import TableSnapshots.Controller.Freeze
import TableSnapshots.Proofs.Text.Blank
import TableSnapshots.Proofs.Text.Bytes
import TableSnapshots.Proofs.Text.Decimal
import TableSnapshots.Tree.Basic

/-!
# The counter of freezes

The engine writes the number of its latest freeze in decimal and ends the line. That text is read
back as the number if a word of 64 bits can hold it (`readGeneration_decimal`).
-/

namespace TableSnapshots

namespace Controller

/-- The number that the engine wrote is read. -/
theorem readGeneration_decimal {n : Nat} (h : n < wordCount 64) :
    readGeneration (Text.decimal n ++ "\n").toUTF8 = .ok n := by
  have htrim : Text.trimChars (Text.decimal n ++ "\n").toList = (Text.decimal n).toList := by
    have hend : ∀ c ∈ ['\n'], Text.isBlank c = true := by
      intro c hc
      rw [List.mem_singleton.mp hc]
      rfl
    have hline := Text.trimChars_append_blanks (List.forall_mem_nil _) (Text.decimal n).toList hend
    rw [String.toList_append]
    exact hline.trans (Text.trimChars_eq_self fun c hc =>
      Text.isBlank_of_isDigit (Text.isDigit_of_mem_decimal hc))
  unfold readGeneration
  rw [Text.fromUTF8?_toUTF8]
  dsimp only
  rw [htrim, Text.readUnsigned?_decimal h]

/-- The name of the counter's file is no decimal, so no freeze has its directory there. -/
theorem decimal_ne_incrementName (n : Nat) : Text.decimal n ≠ incrementName := by
  intro heq
  have hmem : 'i' ∈ (Text.decimal n).toList := by
    rw [heq]
    decide
  exact Text.not_mem_decimal rfl n hmem

end Controller

/-- The number of the latest freeze in the files of a tree, zero if there is none to read. -/
def Tree.counter (t : Tree) (shadow : Location) : Nat :=
  match t.content? (shadow ++ [Controller.incrementName]) with
  | some (.file bytes) =>
    match Controller.readGeneration bytes with
    | .ok n => n
    | .error _ => 0
  | _ => 0

end TableSnapshots
