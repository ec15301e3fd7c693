import UiRunner.Action.Script

/-!
# Polling

Looking for an element until it is on the screen in the wanted state. Between two attempts lies
the poll interval, the last one is cut short so that an attempt is made at the deadline, and an
attempt that ends at or after the deadline is the last.
-/
namespace UiRunner.Action

open Device

/-- What an element must be before an action may use it. -/
inductive Readiness where
  | present
  | visible
  | clickable
deriving DecidableEq, Repr

def Readiness.holds (r : Readiness) (e : ElementId) : Script Bool :=
  match r with
  | .present => pure true
  | .visible => Script.displayed e
  | .clickable => do
    if ← Script.displayed e then Script.enabled e
    else pure false

/-- The poll interval in milliseconds; it is never zero. -/
def Settings.interval (s : Settings) : Nat := max s.pollInterval 1

theorem Settings.interval_pos (s : Settings) : 0 < s.interval := by
  simp only [interval]; omega

/-- One look at the screen. -/
def attempt (query : Query) (r : Readiness) : Script (Option ElementId) := do
  match ← Script.find query with
  | none => pure none
  | some e =>
    if ← r.holds e then pure (some e)
    else pure none

/-- At most `left` attempts. An attempt is followed by the end or by a pause. -/
def pollTimes (query : Query) (r : Readiness) (interval : Nat) (deadline : Option Nat) :
    Nat → Script (Option ElementId)
  | 0 => Script.forever
  | left + 1 => do
    match ← attempt query r with
    | some e => pure (some e)
    | none =>
      match deadline with
      | none => do
        Script.pause (.ofMillis interval)
        pollTimes query r interval deadline left
      | some d => do
        let now ← Script.now
        if d ≤ now then pure none
        else
          Script.pause (.ofMillis (min interval (d - now)))
          pollTimes query r interval deadline left

/-- How many attempts a timeout has room for. After that many the clock has passed the deadline
or, when the deadline is not on the clock, its own end. -/
def attemptsWithin (secs interval : Nat) : Nat := (secs * 1000 + interval - 1) / interval + 1

/-- Polls for a number of seconds; no element means that the deadline has passed without one. -/
def poll (s : Settings) (query : Query) (secs : Nat) (r : Readiness) :
    Script (Option ElementId) := do
  let start ← Script.now
  let deadline := if Clock.fits start (.ofSecs secs) then some (start + secs * 1000) else none
  pollTimes query r s.interval deadline (attemptsWithin secs s.interval)

end UiRunner.Action
