import TableSnapshots.Proofs.World.Session
import TableSnapshots.Retry.Policy

/-!
# Attempts on a state

What retrying does to the state that it runs on. What every attempt and every wait keeps holds in
the end (`run_invariant`), so what none of them changes is the same then (`run_preserves`). An
attempt that succeeds is the last one (`run_of_ok`). An operation that fails in the same way
whenever it is tried, and changes nothing, is tried as often as its fault is worth (`attemptsOn`),
and what is left are the waits in between (`run_of_fault`).
-/

namespace TableSnapshots.RetryPolicy

variable {S α : Type} {p : RetryPolicy} {operation : StateM S (Except Fault α)}
  {wait : Delay → StateM S Unit}

/-- How often an operation is tried that always fails with this fault. -/
def attemptsOn (p : RetryPolicy) (fault : Fault) : Nat :=
  if p.isTransient fault then p.attemptLimit else 1

/-- The state after some waits, one after the other. -/
def waited (wait : Delay → StateM S Unit) (s : S) (delays : List Delay) : S :=
  delays.foldl (fun s d => ((wait d).run s).2) s

/-- The last attempt is the last thing that is done. -/
theorem attempt_zero (n : Nat) (s : S) :
    (p.attempt operation wait 0 n).run s
      = (((operation.run s).1.mapError fun fault => ⟨n + 1, fault⟩), (operation.run s).2) := by
  rcases h : operation.run s with ⟨r, s'⟩
  rw [attempt, run_bind_of_eq h]
  cases r <;> rfl

/-- An attempt that succeeds is the last one. -/
theorem attempt_of_ok {left n : Nat} {s s' : S} {a : α} (h : operation.run s = (.ok a, s')) :
    (p.attempt operation wait left n).run s = (.ok a, s') := by
  cases left <;> rw [attempt, run_bind_of_eq h] <;> rfl

/-- So is one that fails with a fault that another attempt would not mend. -/
theorem attempt_of_not_transient {left n : Nat} {s s' : S} {fault : Fault}
    (h : operation.run s = (.error fault, s')) (hfault : p.isTransient fault = false) :
    (p.attempt operation wait left n).run s = (.error ⟨n + 1, fault⟩, s') := by
  cases left with
  | zero => rw [attempt_zero, h]; rfl
  | succ left =>
    rw [attempt, run_bind_of_eq h]
    dsimp only
    rw [if_neg (by simp [hfault])]
    rfl

/-- After any other failure the next attempt follows a wait. -/
theorem attempt_of_transient {left n : Nat} {s s' : S} {fault : Fault}
    (h : operation.run s = (.error fault, s')) (hfault : p.isTransient fault = true) :
    (p.attempt operation wait (left + 1) n).run s
      = (p.attempt operation wait left (n + 1)).run ((wait (p.delayFor n)).run s').2 := by
  rw [attempt, run_bind_of_eq h]
  dsimp only
  rw [if_pos hfault]
  exact run_bind_of_eq rfl

/-- What holds at the start, and after every attempt and every wait if it held before, holds after
any attempts. -/
theorem attempt_invariant {I : S → Prop} (hoperation : ∀ s, I s → I (operation.run s).2)
    (hwait : ∀ d s, I s → I ((wait d).run s).2) (left n : Nat) {s : S} (hs : I s) :
    I ((p.attempt operation wait left n).run s).2 := by
  induction left generalizing n s with
  | zero =>
    rw [attempt_zero]
    exact hoperation s hs
  | succ left ih =>
    rcases h : operation.run s with ⟨r, s'⟩
    have hs' : I s' := by
      have hnext := hoperation s hs
      rwa [h] at hnext
    cases r with
    | ok a =>
      rw [attempt_of_ok h]
      exact hs'
    | error fault =>
      cases hfault : p.isTransient fault with
      | true =>
        rw [attempt_of_transient h hfault]
        exact ih (n + 1) (hwait _ s' hs')
      | false =>
        rw [attempt_of_not_transient h hfault]
        exact hs'

/-- An operation that always fails in the same way is tried until its attempts are used up, if
another attempt may mend it. -/
theorem attempt_of_fault {I : S → Prop} {fault : Fault}
    (hoperation : ∀ s, I s → operation.run s = (.error fault, s))
    (hwait : ∀ d s, I s → I ((wait d).run s).2) (hfault : p.isTransient fault = true)
    (left n : Nat) {s : S} (hs : I s) :
    (p.attempt operation wait left n).run s
      = (.error ⟨n + left + 1, fault⟩, waited wait s ((List.range' n left).map p.delayFor)) := by
  induction left generalizing n s with
  | zero =>
    rw [attempt_zero, hoperation s hs]
    rfl
  | succ left ih =>
    rw [attempt_of_transient (hoperation s hs) hfault, ih (n + 1) (hwait _ s hs), List.range'_succ,
      show n + 1 + left = n + (left + 1) by omega]
    rfl

/-- What every attempt and every wait keeps holds in the end. -/
theorem run_invariant {I : S → Prop} (hoperation : ∀ s, I s → I (operation.run s).2)
    (hwait : ∀ d s, I s → I ((wait d).run s).2) {s : S} (hs : I s) :
    I ((p.run operation wait).run s).2 :=
  attempt_invariant hoperation hwait _ _ hs

/-- What no attempt and no wait changes is the same in the end. -/
theorem run_preserves {β : Type} {f : S → β} (hoperation : ∀ s, f (operation.run s).2 = f s)
    (hwait : ∀ d s, f ((wait d).run s).2 = f s) (s : S) :
    f ((p.run operation wait).run s).2 = f s :=
  run_invariant (I := fun s' => f s' = f s) (fun s' hs' => (hoperation s').trans hs')
    (fun d s' hs' => (hwait d s').trans hs') rfl

/-- A first attempt that succeeds is the only one. -/
theorem run_of_ok {s s' : S} {a : α} (h : operation.run s = (.ok a, s')) :
    (p.run operation wait).run s = (.ok a, s') :=
  attempt_of_ok h

/-- An operation that always fails in the same way is tried as often as its fault is worth. -/
theorem run_of_fault {I : S → Prop} {fault : Fault}
    (hoperation : ∀ s, I s → operation.run s = (.error fault, s))
    (hwait : ∀ d s, I s → I ((wait d).run s).2) {s : S} (hs : I s) :
    (p.run operation wait).run s
      = (.error ⟨p.attemptsOn fault, fault⟩,
          waited wait s ((List.range (p.attemptsOn fault - 1)).map p.delayFor)) := by
  unfold run attemptsOn
  cases hfault : p.isTransient fault with
  | false => exact attempt_of_not_transient (hoperation s hs) hfault
  | true =>
    have hlimit : 1 ≤ p.attemptLimit := Nat.le_max_left 1 _
    rw [attempt_of_fault hoperation hwait hfault _ _ hs, if_pos rfl, List.range_eq_range',
      show 0 + (p.attemptLimit - 1) + 1 = p.attemptLimit by omega]

end TableSnapshots.RetryPolicy
