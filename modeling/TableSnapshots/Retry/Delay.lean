import TableSnapshots.Word

/-!
# Delays

A delay is a number of whole seconds in one 64-bit word and of nanoseconds below one second. Its
multiplication stops at the longest delay instead of passing it.
-/

namespace TableSnapshots

/-- Nanoseconds in a second. -/
def nanosPerSecond : Nat := 1000000000

/-- A length of time. -/
structure Delay where
  seconds : Nat
  nanos : Nat
  seconds_lt : seconds < wordCount 64 := by decide
  nanos_lt : nanos < nanosPerSecond := by decide
  deriving DecidableEq, Repr

namespace Delay

/-- No time at all. -/
def zero : Delay where
  seconds := 0
  nanos := 0

/-- The longest delay. -/
def longest : Delay where
  seconds := wordCount 64 - 1
  nanos := nanosPerSecond - 1

/-- The length of a delay in nanoseconds. -/
def toNanos (d : Delay) : Nat :=
  d.seconds * nanosPerSecond + d.nanos

/-- The delay of `seconds` and `nanos` nanoseconds more, which may exceed a second; the longest
delay if the whole does not fit. -/
def ofParts (seconds nanos : Nat) : Delay :=
  if h : seconds + nanos / nanosPerSecond < wordCount 64 then
    { seconds := seconds + nanos / nanosPerSecond
      nanos := nanos % nanosPerSecond
      seconds_lt := h
      nanos_lt := Nat.mod_lt _ (by decide) }
  else longest

/-- The delay of a number of milliseconds. -/
def ofMillis (millis : Nat) : Delay :=
  ofParts (millis / 1000) (millis % 1000 * 1000000)

/-- The delay `k` times as long, or the longest delay if that does not fit. The nanoseconds are
multiplied first and carry into the seconds. -/
def times (d : Delay) (k : Nat) : Delay :=
  ofParts (d.seconds * k) (d.nanos * k)

/-- Whether one delay is no longer than another: the seconds decide, then the nanoseconds. -/
def le (d e : Delay) : Bool :=
  d.seconds < e.seconds || (d.seconds = e.seconds && d.nanos ≤ e.nanos)

/-- The shorter of two delays. -/
def min (d e : Delay) : Delay :=
  if d.le e then d else e

end Delay

end TableSnapshots
