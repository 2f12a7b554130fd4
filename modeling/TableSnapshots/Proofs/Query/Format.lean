import TableSnapshots.Gateway.Http
import TableSnapshots.Proofs.Query.Statement
import TableSnapshots.Proofs.Text.Blank

/-!
# In which format a statement is answered

The format of an answer is guessed from the end of the statement that it answers: blanks after it
and the case of its letters do not count, and arbitrary names stand in it. A template that ends in
fixed text decides the guess whatever stands before (`expectsJson_of_end`,
`not_expectsJson_of_end`). Only the statement that freezes a partition ends in what it is given, and
there nothing before the partition counts: neither `PARTITION` nor the blank after it can be the
start of what asks for JSON (`expectsJson_freezePartition`).
-/

namespace TableSnapshots

namespace Reply

/-- A text that ends in two ways at once: one end is an end of the other. -/
theorem isSuffixOf_append_eq_false {w front tail : List Char} (h : w.isSuffixOf tail = false)
    (h' : tail.isSuffixOf w = false) : w.isSuffixOf (front ++ tail) = false := by
  rw [Bool.eq_false_iff, ne_eq, List.isSuffixOf_iff_suffix] at *
  intro hw
  -- Of two ends of one text the shorter is an end of the longer.
  rcases List.suffix_or_suffix_of_suffix hw (List.suffix_append front tail) with hend | hend
  · exact h hend
  · exact h' hend

/-- What a statement is looked at for: its characters in upper case, without blanks at the end. -/
def ending (s : String) : List Char :=
  (Text.trimRight s.toList).map upper

/-- If a text ends in anything but blanks, what stands before it is not looked at. -/
theorem ending_append {front tail : String} (h : ending tail ≠ []) :
    ending (front ++ tail) = front.toList.map upper ++ ending tail := by
  unfold ending at *
  rw [String.toList_append, Text.trimRight_append,
    if_neg fun hnil => h (by rw [hnil]; rfl), List.map_append]

/-- A statement that ends in what asks for JSON. -/
theorem expectsJson_of_end (front : String) {tail : String}
    (h : jsonFormat.isSuffixOf (ending tail) = true) : expectsJson (front ++ tail) = true := by
  have hne : ending tail ≠ [] := by
    intro hnil
    rw [hnil] at h
    cases h
  change jsonFormat.isSuffixOf (ending (front ++ tail)) = true
  rw [ending_append hne, List.isSuffixOf_iff_suffix]
  rw [List.isSuffixOf_iff_suffix] at h
  exact h.trans (List.suffix_append _ _)

/-- A statement with another end. -/
theorem not_expectsJson_of_end (front : String) {tail : String}
    (h : jsonFormat.isSuffixOf (ending tail) = false)
    (h' : (ending tail).isSuffixOf jsonFormat = false) :
    expectsJson (front ++ tail) = false := by
  have hne : ending tail ≠ [] := by
    intro hnil
    rw [hnil] at h'
    cases h'
  change jsonFormat.isSuffixOf (ending (front ++ tail)) = false
  rw [ending_append hne]
  exact isSuffixOf_append_eq_false h h'

/-! ## The ends of the templates -/

/-- The ends of the templates that ask for JSON. -/
theorem jsonFormat_isSuffixOf_ending {tail : String}
    (h : tail ∈ [" FORMAT JSON",
      "], 'Array(String)'), name)) ORDER BY metadata_modification_time FORMAT JSON"]) :
    jsonFormat.isSuffixOf (ending tail) = true := by
  revert tail
  decide +kernel

/-- The ends of the others, and what stands before a partition. -/
def otherEnds : List String :=
  [" FORMAT TSVRaw", ") FROM system.tables FORMAT TSVRaw", " FREEZE", " FREEZE PARTITION ", "'"]

/-- None of them is an end of what asks for JSON, or has it as its end. -/
theorem not_expectsJson_of_otherEnd (front tail : String) (h : tail ∈ otherEnds) :
    expectsJson (front ++ tail) = false := by
  have hapart : ∀ tail ∈ otherEnds,
      jsonFormat.isSuffixOf (ending tail) = false ∧
        (ending tail).isSuffixOf jsonFormat = false := by
    decide +kernel
  exact not_expectsJson_of_end front (hapart tail h).1 (hapart tail h).2

/-- What stands before a partition does not end in any start of what asks for JSON. -/
theorem not_isSuffixOf_partition {start : List Char} (h : start <+: jsonFormat)
    (hne : start ≠ []) :
    start.isSuffixOf (" FREEZE PARTITION ".toList.map upper) = false ∧
      (" FREEZE PARTITION ".toList.map upper).isSuffixOf start = false := by
  have hall : ∀ n ≤ jsonFormat.length, jsonFormat.take n ≠ [] →
      (jsonFormat.take n).isSuffixOf (" FREEZE PARTITION ".toList.map upper) = false ∧
        (" FREEZE PARTITION ".toList.map upper).isSuffixOf (jsonFormat.take n) = false := by
    decide +kernel
  rw [List.prefix_iff_eq_take.mp h] at hne ⊢
  exact hall start.length h.length_le hne

/-- A statement for a partition asks for JSON exactly if the partition alone does. -/
theorem expectsJson_freezePartition (db table partition : String) :
    expectsJson (Query.freezePartition db table partition) = expectsJson partition := by
  unfold Query.freezePartition
  generalize "ALTER TABLE " ++ Query.ident db ++ "." ++ Query.ident table = front
  by_cases hblank : ending partition = []
  · -- Without the blanks the statement ends in the word before the partition.
    have hending : ending (front ++ " FREEZE PARTITION " ++ partition)
        = ending (front ++ " FREEZE PARTITION ") := by
      have htrim : Text.trimRight partition.toList = [] := List.map_eq_nil_iff.mp hblank
      unfold ending
      rw [String.toList_append, Text.trimRight_append, if_pos htrim]
    have hfront := not_expectsJson_of_otherEnd front " FREEZE PARTITION " (by decide)
    change jsonFormat.isSuffixOf (ending (front ++ " FREEZE PARTITION " ++ partition))
      = jsonFormat.isSuffixOf (ending partition)
    rw [hending, hblank]
    exact hfront
  · change jsonFormat.isSuffixOf (ending (front ++ " FREEZE PARTITION " ++ partition))
      = jsonFormat.isSuffixOf (ending partition)
    rw [ending_append hblank, String.toList_append, List.map_append, Bool.eq_iff_iff,
      List.isSuffixOf_iff_suffix, List.isSuffixOf_iff_suffix]
    refine ⟨fun h => ?_, fun h => h.trans (List.suffix_append _ _)⟩
    rcases List.suffix_or_suffix_of_suffix h (List.suffix_append _ _) with hend | ⟨start, hstart⟩
    · exact hend
    · -- The partition would be the rest of what asks for JSON after a part that stands before it.
      rw [← hstart, List.suffix_append_self_iff] at h
      by_cases hnil : start = []
      · rw [← hstart, hnil]
        exact List.suffix_rfl
      · obtain ⟨hin, hout⟩ := not_isSuffixOf_partition ⟨_, hstart⟩ hnil
        have hfront : start.isSuffixOf
            (front.toList.map upper ++ " FREEZE PARTITION ".toList.map upper) = false :=
          isSuffixOf_append_eq_false hin hout
        rw [Bool.eq_false_iff, ne_eq, List.isSuffixOf_iff_suffix] at hfront
        exact absurd h hfront

end Reply

/-! ## The statements -/

namespace Query

/-- Whether the answer to a statement is JSON: that of the queries for lists is, and that of the
statement for a partition is if the partition itself ends so. -/
def Statement.asksJson : Statement → Bool
  | showDatabases | showTables _ | tablesOrdered _ _ | tablePartitions _ _ => true
  | freezePartition _ _ partition =>
    Reply.jsonFormat.isSuffixOf ((Text.trimRight partition.toList).map Reply.upper)
  | _ => false

/-- A statement that ends in a text value asks for no JSON. -/
theorem not_expectsJson_literal (front s : String) :
    Reply.expectsJson (front ++ literal s) = false := by
  have hliteral : literal s = String.ofList ('\'' :: escape '\'' s.toList) ++ "'" := by
    rw [← String.toList_inj, String.toList_append, literal, enclose, String.toList_ofList,
      String.toList_ofList]
    rfl
  rw [hliteral, ← String.append_assoc]
  exact Reply.not_expectsJson_of_otherEnd _ _ (by decide)

/-- The format that is guessed from a statement is the one that it asks for, whatever names are
filled in. -/
theorem expectsJson_text (s : Statement) : Reply.expectsJson s.text = s.asksJson := by
  have hjson : ∀ front, Reply.expectsJson (front ++ " FORMAT JSON") = true := fun front =>
    Reply.expectsJson_of_end front (Reply.jsonFormat_isSuffixOf_ending (by simp))
  have htext : ∀ front, Reply.expectsJson (front ++ " FORMAT TSVRaw") = false := fun front =>
    Reply.not_expectsJson_of_otherEnd front _ (by decide)
  cases s with
  | version => exact htext "SELECT version()"
  | showDatabases => exact hjson "SHOW DATABASES"
  | showTables db => exact hjson _
  | checkTable db table =>
    exact Reply.not_expectsJson_of_otherEnd _ ") FROM system.tables FORMAT TSVRaw"
      (by decide)
  | showCreateDatabase db => exact htext _
  | showCreateTable db table => exact htext _
  | tablesOrdered db tables =>
    exact Reply.expectsJson_of_end _ (Reply.jsonFormat_isSuffixOf_ending (by simp))
  | tablePartitions db table => exact hjson _
  | tableDataPath db table => exact htext _
  | freezeTable db table => exact Reply.not_expectsJson_of_otherEnd _ " FREEZE" (by decide)
  | freezePartition db table partition => exact Reply.expectsJson_freezePartition db table partition
  | attachPart db table part => exact not_expectsJson_literal _ part

end Query

end TableSnapshots
