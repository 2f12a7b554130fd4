import Mathlib.Data.Nat.Find
import TableSnapshots.Proofs.Retry.Attempt

/-!
# Runs by their outcomes

Which attempt of a run is its last one, and what the run does up to it. An attempt and a wait lead
from the state before an attempt to the state before the next one (`stateBefore`), so that a run is
the sequence of these states up to the first outcome that leaves nothing to try, or up to the end of
the attempts (`attempt_of_last`, `run_of_isLast`). With given outcomes the operation is called once
for each of them up to the last one, and the waits of the policy lie between the calls
(`run_ends_at_first_settled`).
-/

namespace TableSnapshots.RetryPolicy

variable {α : Type} {p : RetryPolicy}

/-! ## The last attempt -/

/-- An outcome leaves nothing to try: it is a success, or a fault that another attempt would not
mend. -/
def Settles (p : RetryPolicy) : Except Fault α → Prop
  | .ok _ => True
  | .error fault => p.isTransient fault = false

/-- Attempt `k`, counted from zero, is the last one if the attempts have these outcomes. -/
structure IsLast (p : RetryPolicy) (outcomes : Nat → Except Fault α) (k : Nat) : Prop where
  /-- There are no more attempts than the policy has, and one if it has none. -/
  lt : k < max 1 p.maxAttempts.toNat
  /-- After every earlier outcome there was something to try. -/
  before : ∀ i < k, ¬ p.Settles (outcomes i)
  /-- After this one there is not, or no attempt is left. -/
  last : p.Settles (outcomes k) ∨ k = max 1 p.maxAttempts.toNat - 1

/-- Some attempt is the last one. -/
theorem exists_isLast (p : RetryPolicy) (outcomes : Nat → Except Fault α) :
    ∃ k, p.IsLast outcomes k := by
  classical
  have hsome : ∃ k, p.Settles (outcomes k) ∨ k = max 1 p.maxAttempts.toNat - 1 := ⟨_, .inr rfl⟩
  have hle : Nat.find hsome ≤ max 1 p.maxAttempts.toNat - 1 := Nat.find_min' hsome (.inr rfl)
  have hpos : 1 ≤ max 1 p.maxAttempts.toNat := Nat.le_max_left 1 _
  refine ⟨Nat.find hsome, by omega, fun i hi hsettles => ?_, Nat.find_spec hsome⟩
  exact Nat.find_min hsome hi (.inl hsettles)

/-- Only one is. -/
theorem IsLast.unique {outcomes : Nat → Except Fault α} {k k' : Nat} (h : p.IsLast outcomes k)
    (h' : p.IsLast outcomes k') : k' = k := by
  have hlt := h.lt
  have hlt' := h'.lt
  rcases Nat.lt_trichotomy k' k with hless | heq | hgreater
  · have := h'.last.resolve_left (h.before k' hless)
    omega
  · exact heq
  · have := h.last.resolve_left (h'.before k hgreater)
    omega

/-! ## A run up to its last attempt -/

section Run

variable {S : Type} {operation : StateM S (Except Fault α)} {wait : Delay → StateM S Unit}

/-- The state before attempt `i` if an attempt and a wait go before it for every number below. -/
def stateBefore (p : RetryPolicy) (operation : StateM S (Except Fault α))
    (wait : Delay → StateM S Unit) (s : S) : Nat → S
  | 0 => s
  | i + 1 => ((wait (p.delayFor i)).run (operation.run (stateBefore p operation wait s i)).2).2

/-- Attempts from number `n` on end with attempt `k` if it is the first one after which there is
nothing to try, or the last one that is left. -/
theorem attempt_of_last {s : S} {left n k : Nat} (hn : n ≤ k) (hk : k ≤ n + left)
    (hbefore : ∀ i, n ≤ i → i < k →
      ¬ p.Settles (operation.run (p.stateBefore operation wait s i)).1)
    (hlast : p.Settles (operation.run (p.stateBefore operation wait s k)).1 ∨ k = n + left) :
    (p.attempt operation wait left n).run (p.stateBefore operation wait s n)
      = ((operation.run (p.stateBefore operation wait s k)).1.mapError fun fault => ⟨k + 1, fault⟩,
          (operation.run (p.stateBefore operation wait s k)).2) := by
  induction left generalizing n with
  | zero =>
    obtain rfl : k = n := by omega
    exact attempt_zero k _
  | succ left ih =>
    rcases h : operation.run (p.stateBefore operation wait s n) with ⟨outcome, s'⟩
    by_cases hnk : n = k
    · -- This attempt is the last one, and not for want of others.
      subst hnk
      have hsettles := hlast.resolve_right (by omega)
      rw [h] at hsettles ⊢
      cases outcome with
      | ok a => exact attempt_of_ok h
      | error fault => exact attempt_of_not_transient h hsettles
    · have hgoes := hbefore n (Nat.le_refl n) (by omega)
      rw [h] at hgoes
      cases outcome with
      | ok a => exact absurd trivial hgoes
      | error fault =>
        have htransient : p.isTransient fault = true := (Bool.not_eq_false _).mp hgoes
        have hnext : ((wait (p.delayFor n)).run s').2 = p.stateBefore operation wait s (n + 1) := by
          rw [stateBefore, h]
        rw [attempt_of_transient h htransient, hnext]
        exact ih (by omega) (by omega) (fun i hi => hbefore i (by omega))
          (hlast.imp_right fun heq => by omega)

/-- A run ends with its last attempt. -/
theorem run_of_isLast {s : S} {k : Nat}
    (h : p.IsLast (fun i => (operation.run (p.stateBefore operation wait s i)).1) k) :
    (p.run operation wait).run s
      = ((operation.run (p.stateBefore operation wait s k)).1.mapError fun fault => ⟨k + 1, fault⟩,
          (operation.run (p.stateBefore operation wait s k)).2) := by
  have hlt : k < p.attemptLimit := h.lt
  have hlast := h.last.imp_right fun heq : k = p.attemptLimit - 1 => heq.trans (Nat.zero_add _).symm
  exact attempt_of_last (Nat.zero_le k) (by omega) (fun i _ => h.before i) hlast

end Run

/-! ## Given outcomes -/

/-- What happens in a run. -/
inductive RetryEvent where
  /-- The operation was called. -/
  | called
  /-- There was a wait. -/
  | waited (delay : Delay)
  deriving DecidableEq

/-- An operation that has the given outcomes, one after the other. Its calls are noted. -/
def scripted (outcomes : Nat → Except Fault α) : StateM (List RetryEvent) (Except Fault α) :=
  fun events => (outcomes (events.count .called), events ++ [.called])

/-- A wait that is noted. -/
def noteWait (delay : Delay) : StateM (List RetryEvent) Unit :=
  fun events => ((), events ++ [.waited delay])

/-- What happened before attempt `k`: calls, each with the wait after it. -/
def eventsBefore (p : RetryPolicy) (k : Nat) : List RetryEvent :=
  (List.range k).flatMap fun i => [.called, .waited (p.delayFor i)]

/-- One more call and wait. -/
theorem eventsBefore_succ (p : RetryPolicy) (k : Nat) :
    p.eventsBefore (k + 1) = p.eventsBefore k ++ [.called, .waited (p.delayFor k)] := by
  unfold eventsBefore
  rw [List.range_succ, List.flatMap_append, List.flatMap_singleton]

/-- Before attempt `k` there were that many calls. -/
theorem count_eventsBefore (p : RetryPolicy) (k : Nat) :
    (p.eventsBefore k).count .called = k := by
  induction k with
  | zero => rfl
  | succ k ih =>
    rw [eventsBefore_succ, List.count_append, ih]
    rfl

/-- They are what is noted then. -/
theorem stateBefore_scripted (p : RetryPolicy) (outcomes : Nat → Except Fault α) (k : Nat) :
    p.stateBefore (scripted outcomes) noteWait [] k = p.eventsBefore k := by
  induction k with
  | zero => rfl
  | succ k ih =>
    rw [stateBefore, ih, eventsBefore_succ]
    exact List.append_assoc _ _ _

/-- A fault may pass if its kind is one of those that may, or if it has a number that is. -/
theorem isTransient_iff (p : RetryPolicy) (fault : Fault) :
    p.isTransient fault = true ↔
      fault.kind ∈ p.transientKinds ∨ ∃ code ∈ p.transientCodes, fault.code? = some code := by
  unfold isTransient
  rw [Bool.or_eq_true, List.contains_iff_mem, Option.any_eq_true]
  simp only [List.contains_iff_mem, and_comm]

/-- A run with given outcomes ends with the first one that leaves nothing to try, or with the last
attempt that the policy has. That outcome is the result, a fault with the number of the calls. Up to
then there is one call for each outcome, with the waits of the policy between them, and the calls
are never more than a word of 32 bits can count. -/
theorem run_ends_at_first_settled (p : RetryPolicy) (outcomes : Nat → Except Fault α) :
    ∃ k, p.IsLast outcomes k ∧ (∀ k', p.IsLast outcomes k' → k' = k) ∧
      (p.run (scripted outcomes) noteWait).run []
        = ((outcomes k).mapError fun fault => ⟨k + 1, fault⟩,
            (List.range k).flatMap (fun i => [.called, .waited (p.delayFor i)]) ++ [.called]) ∧
      k + 1 < wordCount 32 ∧
      ∀ fault, p.isTransient fault = true ↔
        fault.kind ∈ p.transientKinds ∨ ∃ code ∈ p.transientCodes, fault.code? = some code := by
  have houtcome : ∀ i, ((scripted outcomes).run (p.stateBefore (scripted outcomes) noteWait [] i)).1
      = outcomes i := by
    intro i
    rw [stateBefore_scripted]
    exact congrArg outcomes (p.count_eventsBefore i)
  obtain ⟨k, hk⟩ := p.exists_isLast outcomes
  refine ⟨k, hk, fun k' hk' => hk.unique hk', ?_, ?_, p.isTransient_iff⟩
  · have hlast : p.IsLast (fun i => ((scripted outcomes).run
        (p.stateBefore (scripted outcomes) noteWait [] i)).1) k := by
      simpa only [houtcome] using hk
    rw [run_of_isLast hlast, houtcome, stateBefore_scripted]
    rfl
  · have hlt := hk.lt
    have hword : p.maxAttempts.toNat < wordCount 32 := p.maxAttempts.toNat_lt
    have hone : 1 < wordCount 32 := by decide
    omega

end TableSnapshots.RetryPolicy
