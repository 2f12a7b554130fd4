import TableSnapshots.Fault
import TableSnapshots.Retry.Delay

/-!
# Retrying

A policy says which faults are worth another attempt, how many attempts there are in all, and how
long to wait between two of them. `RetryPolicy.run` tries until an attempt succeeds, until one fails
with a fault that another attempt would not mend, or until the attempts are used up.
-/

namespace TableSnapshots

/-- Which faults are worth another attempt, how often, and how long to wait before it. -/
structure RetryPolicy where
  /-- Attempts in all, the first one included. Zero counts as one. -/
  maxAttempts : UInt32
  /-- The wait before the second attempt; each later wait is twice as long. -/
  baseDelay : Delay
  /-- No wait is longer. -/
  maxDelay : Delay
  /-- Kinds of fault that may pass. -/
  transientKinds : List FaultKind
  /-- Error numbers of the operating system that may pass, whatever their kind. -/
  transientCodes : List Int
  deriving DecidableEq, Repr

/-- The last fault of an operation that did not succeed, and how often it was tried. -/
structure RetryFailure where
  attempts : Nat
  fault : Fault
  deriving DecidableEq, Repr

namespace RetryPolicy

/-- Five attempts, waiting from a tenth of a second up to two seconds, on faults of a busy system:
something is in use, a directory fills again, a call was interrupted, no file can be opened. -/
def standard : RetryPolicy where
  maxAttempts := 5
  baseDelay := .ofMillis 100
  maxDelay := .ofMillis 2000
  transientKinds := [.resourceBusy, .directoryNotEmpty, .interrupted, .wouldBlock]
  transientCodes := [16, 24, 23]

/-- One attempt. -/
def once : RetryPolicy :=
  { standard with maxAttempts := 1 }

/-- The policy with another number of attempts. -/
def withMaxAttempts (p : RetryPolicy) (n : UInt32) : RetryPolicy :=
  { p with maxAttempts := n }

/-- The policy with other delays. -/
def withDelays (p : RetryPolicy) (base max : Delay) : RetryPolicy :=
  { p with baseDelay := base, maxDelay := max }

/-- Whether a fault may pass: its kind or its number says so. -/
def isTransient (p : RetryPolicy) (f : Fault) : Bool :=
  p.transientKinds.contains f.kind || f.code?.any p.transientCodes.contains

/-- By how much the wait after failed attempt `n` (from zero) exceeds the first wait. The factor
doubles while it fits into 32 bits and stays at the largest number of 32 bits after that. -/
def factor (n : Nat) : Nat :=
  if n < 32 then Nat.pow 2 n else wordCount 32 - 1

/-- The wait after failed attempt `n`, counted from zero. -/
def delayFor (p : RetryPolicy) (n : Nat) : Delay :=
  (p.baseDelay.times (factor n)).min p.maxDelay

/-- How many attempts there are at most: always at least one. -/
def attemptLimit (p : RetryPolicy) : Nat :=
  max 1 p.maxAttempts.toNat

variable {m : Type → Type} [Monad m] {α : Type}

/-- The attempts from number `n` (from zero) on, of which `left` may follow a failure. -/
def attempt (p : RetryPolicy) (operation : m (Except Fault α)) (wait : Delay → m Unit) :
    (left n : Nat) → m (Except RetryFailure α)
  | 0, n => do
    match ← operation with
    | .ok value => return .ok value
    | .error fault => return .error ⟨n + 1, fault⟩
  | left + 1, n => do
    match ← operation with
    | .ok value => return .ok value
    | .error fault =>
      if p.isTransient fault then
        wait (p.delayFor n)
        attempt p operation wait left (n + 1)
      else return .error ⟨n + 1, fault⟩

/-- Run `operation` until it succeeds, fails for good, or has used up its attempts. -/
def run (p : RetryPolicy) (operation : m (Except Fault α)) (wait : Delay → m Unit) :
    m (Except RetryFailure α) :=
  p.attempt operation wait (p.attemptLimit - 1) 0

end RetryPolicy

end TableSnapshots
