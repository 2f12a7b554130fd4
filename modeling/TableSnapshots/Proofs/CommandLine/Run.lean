import TableSnapshots.Proofs.Controller.Run
import TableSnapshots.Proofs.World.Session
import TableSnapshots.Rehearsal.Session

/-!
# Running a command

A command is run like an operation, step by step. An operation that it performs ends it with its
error (`run_perform_bind_of_error`) or hands on its result (`run_perform_bind_of_ok`); what is
written goes to the console of the world and changes nothing else.
-/

namespace TableSnapshots.CommandLine

open Controller (Op run_bind_of_ok run_bind_of_error)
open Rehearsal (console)

section Steps

variable {S α β : Type} {op : Op (StateM S) α} {f : α → ExceptT Failure (StateM S) β} {s s' : S}

/-- An operation does in a command what it does anywhere, and fails with its own error. -/
theorem run_perform (op : Op (StateM S) α) (s : S) :
    (perform op).run.run s
      = ((op.run.run s).1.mapError .operation, (op.run.run s).2) := rfl

/-- A command goes on with what an operation gives. -/
theorem run_perform_bind_of_ok {a : α} (h : op.run.run s = (.ok a, s')) :
    (perform op >>= f).run.run s = (f a).run.run s' := by
  have hperform := run_perform op s
  rw [h] at hperform
  exact run_bind_of_ok hperform

/-- An operation that fails ends the command with its error, in the state that it leaves. -/
theorem run_perform_bind_of_error {e : Error} (h : op.run.run s = (.error e, s')) :
    (perform op >>= f).run.run s = (.error (.operation e), s') := by
  have hperform := run_perform op s
  rw [h] at hperform
  exact run_bind_of_error hperform

end Steps

section World

variable {σ : Type}

/-- Reporting adds a line to what was reported. -/
theorem run_report (line : String) (w : World σ) :
    (ExceptT.lift (console.report line) : ExceptT Failure (StateM (World σ)) Unit).run.run w
      = (.ok (), { w with reported := w.reported ++ [line] }) := rfl

/-- Printing adds its lines to those of the result, in their order. -/
theorem run_printAll (lines : List String) (w : World σ) :
    (printAll console lines).run.run w
      = (.ok (), { w with printed := w.printed ++ lines }) := by
  induction lines generalizing w with
  | nil =>
    rw [List.append_nil]
    rfl
  | cons line lines ih =>
    have hfirst : (ExceptT.lift (console.print line) :
        ExceptT Failure (StateM (World σ)) Unit).run.run w
          = (.ok (), { w with printed := w.printed ++ [line] }) := rfl
    rw [printAll, run_bind_of_ok hfirst, ih, List.append_assoc]
    rfl

end World

end TableSnapshots.CommandLine
