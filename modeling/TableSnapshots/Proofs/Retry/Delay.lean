import Mathlib.Tactic.Ring
import TableSnapshots.Config

/-!
# Lengths of delays

What the waits between attempts amount to in nanoseconds. A delay is determined by its length, and
the shorter of two delays has fewer nanoseconds (`Delay.toNanos_min`). A multiple is as long as the
exact product or as the longest delay, whichever is shorter (`Delay.toNanos_times`), so cutting it
at a longest wait never shows that the product did not fit. The waits of a policy follow one formula
for every attempt (`RetryPolicy.toNanos_delayFor`).
-/

namespace TableSnapshots

namespace Delay

variable {d e : Delay}

/-- One nanosecond more than the longest delay would need another bit of seconds. -/
theorem toNanos_longest : longest.toNanos + 1 = wordCount 64 * nanosPerSecond := by decide

/-- No delay is longer than the longest one. -/
theorem toNanos_le_longest (d : Delay) : d.toNanos ≤ longest.toNanos := by
  have hseconds := d.seconds_lt
  have hnanos := d.nanos_lt
  have hlongest := toNanos_longest
  rw [toNanos]
  unfold nanosPerSecond at *
  omega

/-- A delay is no longer than another exactly if it has no more nanoseconds. -/
theorem le_iff : d.le e = true ↔ d.toNanos ≤ e.toNanos := by
  have hd := d.nanos_lt
  have he := e.nanos_lt
  unfold le toNanos
  unfold nanosPerSecond at *
  simp only [Bool.or_eq_true, Bool.and_eq_true, decide_eq_true_eq]
  omega

/-- Delays of the same length are the same. -/
theorem toNanos_injective (h : d.toNanos = e.toNanos) : d = e := by
  have hd := d.nanos_lt
  have he := e.nanos_lt
  unfold toNanos at h
  unfold nanosPerSecond at *
  have hseconds : d.seconds = e.seconds := by omega
  have hnanos : d.nanos = e.nanos := by omega
  cases d
  cases e
  cases hseconds
  cases hnanos
  rfl

/-- The shorter one of two delays has the smaller number of nanoseconds. -/
theorem toNanos_min (d e : Delay) : (d.min e).toNanos = Min.min d.toNanos e.toNanos := by
  unfold min
  split
  · next h => exact (Nat.min_eq_left (le_iff.mp h)).symm
  · next h => exact (Nat.min_eq_right (Nat.le_of_not_le (mt le_iff.mpr h))).symm

/-- Seconds and nanoseconds are as long as they are together, if that fits. -/
theorem toNanos_ofParts (seconds nanos : Nat) :
    (ofParts seconds nanos).toNanos
      = Min.min (seconds * nanosPerSecond + nanos) longest.toNanos := by
  have hlongest := toNanos_longest
  have hsplit := Nat.div_add_mod nanos nanosPerSecond
  have hrest := Nat.mod_lt nanos (show 0 < nanosPerSecond by decide)
  unfold ofParts
  split
  · next h =>
    rw [toNanos]
    unfold nanosPerSecond at *
    dsimp only
    omega
  · next h =>
    unfold nanosPerSecond at *
    omega

/-- A multiple of a delay is as long as the exact product, if that fits. -/
theorem toNanos_times (d : Delay) (k : Nat) :
    (d.times k).toNanos = Min.min (d.toNanos * k) longest.toNanos := by
  have hproduct : d.seconds * k * nanosPerSecond + d.nanos * k = d.toNanos * k := by
    unfold toNanos
    ring
  rw [times, toNanos_ofParts, hproduct]

/-- A number of milliseconds in one word is as long as it says. -/
theorem toNanos_ofMillis {millis : Nat} (h : millis < wordCount 64) :
    (ofMillis millis).toNanos = millis * 1000000 := by
  have hlongest := toNanos_longest
  rw [ofMillis, toNanos_ofParts]
  unfold nanosPerSecond at *
  omega

end Delay

namespace RetryPolicy

variable (p : RetryPolicy) (n : Nat)

/-- Up to attempt 31 the factor is the power of two. -/
theorem factor_of_lt {n : Nat} (h : n < 32) : factor n = 2 ^ n := if_pos h

/-- After that it is the largest number of 32 bits, which the power of two passes. -/
theorem factor_of_ge {n : Nat} (h : 32 ≤ n) : factor n = 2 ^ 32 - 1 ∧ 2 ^ 32 - 1 ≤ 2 ^ n := by
  have hpow : 2 ^ 32 ≤ 2 ^ n := Nat.pow_le_pow_right (by decide) h
  exact ⟨if_neg (by omega), by omega⟩

/-- So it is always the smaller one of the two. -/
theorem factor_eq : factor n = min (2 ^ n) (2 ^ 32 - 1) := by
  rcases Nat.lt_or_ge n 32 with hn | hn
  · have hpow : 2 ^ n ≤ 2 ^ 31 := Nat.pow_le_pow_right (by decide) (by omega)
    have hfits : 2 ^ n ≤ 2 ^ 32 - 1 := by omega
    rw [factor_of_lt hn, Nat.min_eq_left hfits]
  · obtain ⟨hfactor, hpast⟩ := factor_of_ge hn
    rw [hfactor, Nat.min_eq_right hpast]

/-- It never falls. -/
theorem factor_mono {n n' : Nat} (h : n ≤ n') : factor n ≤ factor n' := by
  have hpow : 2 ^ n ≤ 2 ^ n' := Nat.pow_le_pow_right (by decide) h
  rw [factor_eq, factor_eq]
  omega

/-- The wait after an attempt is the exact product, cut off at the longest wait: that the product
may not fit into a delay cannot be seen, since the longest wait does. -/
theorem toNanos_delayFor :
    (p.delayFor n).toNanos = min (p.baseDelay.toNanos * factor n) p.maxDelay.toNanos := by
  have hmax := p.maxDelay.toNanos_le_longest
  rw [delayFor, Delay.toNanos_min, Delay.toNanos_times, Nat.min_assoc, Nat.min_eq_right hmax]

/-- A product cut off at `longest` shows that the factor has stopped doubling only if the largest
factor does not reach that, and if there is something to multiply. -/
theorem min_mul_factor {base longest : Nat}
    (h : n ≤ 31 ∨ longest ≤ base * (2 ^ 32 - 1) ∨ base = 0) :
    min (base * factor n) longest = min (base * 2 ^ n) longest := by
  rcases Nat.lt_or_ge n 32 with hn | hn
  · rw [factor_of_lt hn]
  · obtain ⟨hfactor, hpast⟩ := factor_of_ge hn
    rw [hfactor]
    rcases h with h | h | rfl
    · omega
    · rw [Nat.min_eq_right h, Nat.min_eq_right (h.trans (Nat.mul_le_mul_left base hpast))]
    · rw [Nat.zero_mul, Nat.zero_mul]

/-- The waits of a policy double from `base` nanoseconds up to `longest`, with a factor of at most
32 bits. -/
structure Doubles (p : RetryPolicy) (base longest : Nat) : Prop where
  /-- The exact length of every wait. -/
  length : ∀ n, (p.delayFor n).toNanos = min (base * min (2 ^ n) (2 ^ 32 - 1)) longest
  /-- Its length as documented, up to attempt 31 or if the largest factor goes far enough. -/
  documented : ∀ n, n ≤ 31 ∨ longest ≤ base * (2 ^ 32 - 1) ∨ base = 0 →
    (p.delayFor n).toNanos = min (base * 2 ^ n) longest
  /-- Neither the factor nor the nanoseconds that it multiplies pass their words. -/
  fits : ∀ n, factor n < wordCount 32 ∧ p.baseDelay.nanos * factor n < wordCount 64
  /-- The product is exact if it fits into a delay, and else the wait is the longest one. -/
  product : ∀ n, base * factor n ≤ Delay.longest.toNanos ∧
      (p.baseDelay.times (factor n)).toNanos = base * factor n
    ∨ Delay.longest.toNanos < base * factor n ∧ p.delayFor n = p.maxDelay
  /-- Later waits are no shorter. -/
  mono : ∀ n n', n ≤ n' → (p.delayFor n).toNanos ≤ (p.delayFor n').toNanos
  /-- No wait is longer than the longest one. -/
  bounded : ∀ n, (p.delayFor n).toNanos ≤ longest

/-- The waits of every policy double from its first wait up to its longest one. -/
theorem doubles : p.Doubles p.baseDelay.toNanos p.maxDelay.toNanos where
  length n := by rw [toNanos_delayFor, factor_eq]
  documented n h := by rw [toNanos_delayFor, min_mul_factor n h]
  fits n := by
    have hfactor : factor n ≤ 2 ^ 32 - 1 := by
      rw [factor_eq]
      exact Nat.min_le_right _ _
    have hnanos : p.baseDelay.nanos ≤ nanosPerSecond := Nat.le_of_lt p.baseDelay.nanos_lt
    constructor
    · exact Nat.lt_of_le_of_lt hfactor (by decide)
    · exact Nat.lt_of_le_of_lt (Nat.mul_le_mul hnanos hfactor) (by decide)
  product n := by
    rcases Nat.lt_or_ge Delay.longest.toNanos (p.baseDelay.toNanos * factor n) with hlong | hfits
    · refine .inr ⟨hlong, Delay.toNanos_injective ?_⟩
      have hmax := p.maxDelay.toNanos_le_longest
      rw [toNanos_delayFor]
      exact Nat.min_eq_right (hmax.trans (Nat.le_of_lt hlong))
    · refine .inl ⟨hfits, ?_⟩
      rw [Delay.toNanos_times]
      exact Nat.min_eq_left hfits
  mono n n' h := by
    have hproduct := Nat.mul_le_mul_left p.baseDelay.toNanos (factor_mono h)
    rw [toNanos_delayFor, toNanos_delayFor]
    omega
  bounded n := by
    rw [toNanos_delayFor]
    exact Nat.min_le_right _ _

/-- The waits of every policy follow the exact formula of its two delays. The policy of a
configuration has exactly the milliseconds of the configuration as its delays, so its waits follow
the formula of these. -/
theorem delays_exact :
    (∀ p : RetryPolicy, p.Doubles p.baseDelay.toNanos p.maxDelay.toNanos) ∧
    ∀ t : TeardownConfig, t.baseDelayMillis < wordCount 64 → t.maxDelayMillis < wordCount 64 →
      t.retryPolicy.baseDelay.toNanos = t.baseDelayMillis * 1000000 ∧
      t.retryPolicy.maxDelay.toNanos = t.maxDelayMillis * 1000000 ∧
      t.retryPolicy.Doubles (t.baseDelayMillis * 1000000) (t.maxDelayMillis * 1000000) := by
  refine ⟨doubles, fun t hbase hmax => ?_⟩
  have hfirst : t.retryPolicy.baseDelay.toNanos = t.baseDelayMillis * 1000000 :=
    Delay.toNanos_ofMillis hbase
  have hlongest : t.retryPolicy.maxDelay.toNanos = t.maxDelayMillis * 1000000 :=
    Delay.toNanos_ofMillis hmax
  have hdoubles := t.retryPolicy.doubles
  rw [hfirst, hlongest] at hdoubles
  exact ⟨hfirst, hlongest, hdoubles⟩

/-- With the largest numbers of milliseconds, attempt 40 waits for the longest wait, although the
product is too long for a delay. -/
theorem delays_exact_largest :
    let t : TeardownConfig := ⟨5, 2 ^ 64 - 1, 2 ^ 64 - 1⟩
    t.baseDelayMillis < wordCount 64 ∧ t.maxDelayMillis < wordCount 64 ∧
      (t.retryPolicy.delayFor 40).toNanos = (2 ^ 64 - 1) * 1000000 := by
  intro t
  have hbase : t.baseDelayMillis < wordCount 64 := by decide
  have hmax : t.maxDelayMillis < wordCount 64 := by decide
  obtain ⟨-, -, hdoubles⟩ := delays_exact.2 t hbase hmax
  have hreached : t.maxDelayMillis * 1000000 ≤ t.baseDelayMillis * 1000000 * (2 ^ 32 - 1) := by
    decide
  refine ⟨hbase, hmax, ?_⟩
  rw [hdoubles.documented 40 (.inr (.inl hreached))]
  exact Nat.min_eq_right (by decide)

end RetryPolicy
end TableSnapshots
