import UiRunner.Decimal.Binary64

/-!
# Spans and instants

A span of time counts nanoseconds; an instant is a number of whole milliseconds since the clock
was started. A pause ends at the first instant that is not before its span is over.
-/
namespace UiRunner

open Decimal

/-- A length of time in nanoseconds. -/
structure Span where
  nanos : Nat
deriving DecidableEq, Repr, Inhabited

namespace Span

def zero : Span := ⟨0⟩

def ofMillis (ms : Nat) : Span := ⟨ms * 1000000⟩

def ofSecs (secs : Nat) : Span := ⟨secs * 1000000000⟩

/-- The longest span: all seconds that 64 bits can count. -/
def max : Span := ⟨Nat.pow 2 64 * 1000000000 - 1⟩

def isZero (d : Span) : Bool := d.nanos == 0

/-- Whole milliseconds, a started one counts. -/
def millis (d : Span) : Nat := (d.nanos + 999999) / 1000000

/-- A number of seconds, rounded to nanoseconds. A negative number counts as zero and one beyond
the longest span as the longest. -/
def ofSeconds (x : Binary64) : Span :=
  if x.isNaN || x.isBelowZero then zero
  else if !x.isFinite then max
  else
    let (n, d) := x.ratio
    if n ≥ Nat.pow 2 64 * d then max else ⟨roundHalfEven (n * 1000000000) d⟩

/-- Seconds as a binary64: the whole seconds plus the rest divided by 10^9. -/
def seconds (d : Span) : Binary64 :=
  (Binary64.ofNat (d.nanos / 1000000000)).addMagnitudes
    ((Binary64.ofNat (d.nanos % 1000000000)).div (Binary64.ofNat 1000000000))

@[simp] theorem millis_ofMillis (ms : Nat) : (ofMillis ms).millis = ms := by
  simp only [millis, ofMillis]; omega

@[simp] theorem millis_ofSecs (secs : Nat) : (ofSecs secs).millis = secs * 1000 := by
  simp only [millis, ofSecs]; omega

end Span

namespace Clock

/-- The clock counts seconds in 63 bits and has been running before the first instant. -/
def end_ : Nat := (Nat.pow 2 63 - 1) * 1000

/-- Whether the instant a span later is still on the clock. -/
def fits (now : Nat) (d : Span) : Bool := now + d.millis < end_

/-- How long a pause lasts whose end is not on the clock: thirty years. -/
def farAway : Nat := 30 * 365 * 86400 * 1000

/-- When a pause that begins now is over. -/
def wake (now : Nat) (d : Span) : Nat :=
  if fits now d then now + d.millis else now + farAway

theorem le_wake (now : Nat) (d : Span) : now ≤ wake now d := by
  simp only [wake]; split <;> omega

theorem fits_of_le {now before : Nat} {d : Span} (h : fits now d) (le : before ≤ now) :
    fits before d := by
  simp only [fits, decide_eq_true_eq] at h ⊢
  omega

theorem wake_of_fits {now : Nat} {d : Span} (h : fits now d) : wake now d = now + d.millis := by
  simp [wake, h]

end Clock

end UiRunner
