import Mathlib.Algebra.GroupWithZero.Nat
import Mathlib.Algebra.Order.BigOperators.Group.List
import Mathlib.Algebra.Order.Group.Nat
import TableSnapshots.Proofs.CommandLine.Run
import TableSnapshots.Proofs.Freeze.Removal
import TableSnapshots.Proofs.Part.Line

/-!
# The lines of a freeze

A freeze prints its parts as lines, and whoever reads them from standard output gets the parts back:
a line is read as its part, and has no line break in it, so that the line breaks of the output are
those between the lines (`pieces_output`). What is reported beside them counts these lines and adds
up the sizes that they tell. A freeze that fails has printed nothing.
-/

namespace TableSnapshots.CommandLine

open Controller (run_bind_of_ok)
open Rehearsal (console)

/-! ## Standard output -/

/-- What standard output holds of some lines: each one with a line break at its end. -/
def output (lines : List String) : List Char :=
  lines.flatMap fun line => line.toList ++ ['\n']

/-- Lines without line breaks are found again between those of the output, and nothing comes after
the last one. -/
theorem pieces_output {lines : List String} (h : ∀ line ∈ lines, '\n' ∉ line.toList) :
    Text.pieces '\n' (output lines) = lines.map String.toList ++ [[]] := by
  induction lines with
  | nil => rfl
  | cons line lines ih =>
    have hfirst : output (line :: lines) = line.toList ++ '\n' :: output lines := by
      simp [output]
    have hline := Text.pieces_of_not_mem (h line List.mem_cons_self)
    rw [hfirst, Text.pieces_append_cons, hline, ih fun l hl => h l (List.mem_cons_of_mem line hl)]
    rfl

/-! ## Reading the lines -/

/-- The parts that some lines tell of. -/
def partsOf (lines : List String) : List FrozenPart :=
  lines.filterMap fun line => (FrozenPart.ofLine line).toOption

/-- Parts are read back from their lines, each from its own. -/
theorem map_ofLine_toLine {parts : List FrozenPart} (h : ∀ p ∈ parts, p.size < wordCount 64) :
    (parts.map FrozenPart.toLine).map FrozenPart.ofLine = parts.map .ok := by
  rw [List.map_map]
  exact List.map_congr_left fun p hp => FrozenPart.ofLine_toLine (h p hp)

/-- So these are the parts that the lines tell of. -/
theorem partsOf_eq {lines : List String} {parts : List FrozenPart}
    (h : lines.map FrozenPart.ofLine = parts.map .ok) : partsOf lines = parts := by
  have hread : partsOf lines = (lines.map FrozenPart.ofLine).filterMap Except.toOption := by
    rw [List.filterMap_map]
    rfl
  rw [hread, h, List.filterMap_map]
  exact List.filterMap_some

/-- Where the sizes of all parts together fit, so does that of each. -/
theorem size_lt_of_sum_lt {parts : List FrozenPart} {n : Nat} (h : (parts.map (·.size)).sum < n) :
    ∀ p ∈ parts, p.size < n :=
  fun _ hp => (List.le_sum_of_mem (List.mem_map_of_mem hp)).trans_lt h

/-- What is reported is the number of the parts and the sum of their sizes. -/
theorem frozenLine_eq (db table : String) (parts : List FrozenPart) :
    frozenLine db table parts
      = "Froze " ++ db ++ "." ++ table ++ ": " ++ Text.decimal parts.length ++ " parts, "
        ++ Text.decimal (parts.map (·.size)).sum ++ " bytes" := by
  unfold frozenLine
  rw [List.sum, List.foldr_map]

/-! ## The command -/

section Command

variable {σ : Type} {c : Controller (StateM (World σ))} {db table : String} {w w' : World σ}

/-- What was frozen is printed, and then it is reported. -/
theorem run_freeze_of_ok {parts : List FrozenPart}
    (h : (c.freezeTable db table).run.run w = (.ok parts, w')) :
    ((Command.freeze db table).run console c).run.run w
      = (.ok (), { w' with
          printed := w'.printed ++ parts.map FrozenPart.toLine
          reported := w'.reported ++ [frozenLine db table parts] }) := by
  have hprint := run_printAll (parts.map FrozenPart.toLine) w'
  exact (run_perform_bind_of_ok h).trans ((run_bind_of_ok hprint).trans (run_report _ _))

/-- A freeze that fails is the end of the command. -/
theorem run_freeze_of_error {e : Error}
    (h : (c.freezeTable db table).run.run w = (.error e, w')) :
    ((Command.freeze db table).run console c).run.run w = (.error (.operation e), w') :=
  run_perform_bind_of_error h

end Command

/-- A frozen part is read back from its line, whatever characters its texts have, and the line has
no line break in it. So the parts that a freeze gives are read back from standard output, one from
each line and in their order, and the numbers of parts and of bytes that are reported are the number
of the lines and the sum of the sizes that are read from them. If the freeze fails, even after some
partitions were frozen, nothing was printed or reported. -/
theorem freeze_lines_lossless :
    (∀ p : FrozenPart, p.size < wordCount 64 →
      FrozenPart.ofLine p.toLine = .ok p ∧ '\n' ∉ p.toLine.toList ∧ '\r' ∉ p.toLine.toList) ∧
    ∀ {σ : Type} {engine : Engine σ} {delegate : Delegate} {config : Config}
      {c : Controller (StateM (World σ))}, c.Serves (World.host engine delegate) config →
      ∀ (db table : String) (w : World σ),
        let freeze := (c.freezeTable db table).run.run w
        let run := ((Command.freeze db table).run console c).run.run w
        (∀ parts, freeze.1 = .ok parts → (parts.map (·.size)).sum < wordCount 64 →
          ∃ lines,
            run = (.ok (), { freeze.2 with
              printed := w.printed ++ lines
              reported := w.reported ++ ["Froze " ++ db ++ "." ++ table ++ ": "
                ++ Text.decimal lines.length ++ " parts, "
                ++ Text.decimal ((partsOf lines).map (·.size)).sum ++ " bytes"] }) ∧
            Text.pieces '\n' (output lines) = lines.map String.toList ++ [[]] ∧
            lines.map FrozenPart.ofLine = parts.map .ok) ∧
        ∀ e, freeze.1 = .error e →
          run = (.error (.operation e), freeze.2) ∧
            freeze.2.printed = w.printed ∧ freeze.2.reported = w.reported := by
  have hbreak : ∀ p : FrozenPart, '\n' ∉ p.toLine.toList :=
    fun p => p.plain_toLine.not_mem (by decide)
  refine ⟨fun p hp => ⟨FrozenPart.ofLine_toLine hp, hbreak p, p.plain_toLine.not_mem (by decide)⟩,
    ?_⟩
  intro σ engine delegate config c hc db table w freeze run
  -- Whatever comes of it, freezing sends queries, and these print and report nothing.
  obtain ⟨result, queries, hfreeze⟩ := Controller.exists_run_freezeTable hc db table w
  have hprinted : freeze.2.printed = w.printed := by
    rw [show freeze = _ from hfreeze]
    exact World.printed_after engine w queries
  have hreported : freeze.2.reported = w.reported := by
    rw [show freeze = _ from hfreeze]
    exact World.reported_after engine w queries
  refine ⟨fun parts hparts htotal => ?_, fun e he => ⟨?_, hprinted, hreported⟩⟩
  · have hread := map_ofLine_toLine (size_lt_of_sum_lt htotal)
    refine ⟨parts.map FrozenPart.toLine, ?_, pieces_output ?_, hread⟩
    · have hrun : run = _ := run_freeze_of_ok (Prod.ext hparts rfl)
      rw [hrun, partsOf_eq hread, List.length_map, ← frozenLine_eq, hprinted, hreported]
    · intro line hline
      obtain ⟨p, -, rfl⟩ := List.mem_map.mp hline
      exact hbreak p
  · exact run_freeze_of_error (Prod.ext he rfl)

/-- A part with quotes, control characters and line breaks in its texts is read back from its line,
and the two parts of a freeze are read back from theirs. -/
theorem freeze_lines_lossless_twoParts :
    let odd : FrozenPart := ⟨"d\"b\\", "t\r\n", "p\t\x01", ⟨"/ch/é\n😀"⟩, "", 18446744073709551615⟩
    let manifest : Content := .file ⟨#[2, 3]⟩
    let c := Controller.twoPartsController manifest
    let run := ((Command.freeze "db" "t").run console c).run.run ⟨(), .empty, [], [], [], [], []⟩
    FrozenPart.ofLine odd.toLine = .ok odd ∧ '\n' ∉ odd.toLine.toList ∧
      run.1.toOption = some () ∧
      run.2.reported = ["Froze db.t: 2 parts, 3 bytes"] ∧
      run.2.printed.map FrozenPart.ofLine
        = [.ok (Controller.onePart "p1" ⟨#[1]⟩ 1), .ok (Controller.onePart "p2" ⟨#[2, 3]⟩ 2)] := by
  intro odd manifest c run
  obtain ⟨hpart, hcommand⟩ := freeze_lines_lossless
  obtain ⟨hodd, hbreak, -⟩ := hpart odd (by decide)
  have hsecond : (Controller.twoParts manifest).part Controller.twoPartsDirectory "db" "t" "p2"
      = .ok (Controller.onePart "p2" ⟨#[2, 3]⟩ 2) := by
    rfl
  have hfreeze := Controller.freezeTable_twoParts manifest hsecond
  have hserves := Controller.twoPartsController_serves manifest
  obtain ⟨lines, hrun, -, hlines⟩ := (hcommand hserves "db" "t" ⟨(), .empty, [], [], [], [], []⟩).1
    _ (congrArg Prod.fst hfreeze) (by decide)
  have hlength : lines.length = 2 := by
    rw [← List.length_map, hlines]
    rfl
  have hrun : run = _ := hrun
  rw [partsOf_eq hlines, hlength] at hrun
  rw [hrun]
  exact ⟨hodd, hbreak, rfl, (List.nil_append _).trans (by decide +kernel), hlines⟩

end TableSnapshots.CommandLine
