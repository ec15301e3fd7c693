import UiRunner.Json.Writer
import UiRunner.Span
import UiRunner.Text.Style

/-!
# Log and report

The log of a run holds an entry for each attempted step in order, and whether the run was aborted
or cancelled. A report is a finished log with the verdict: a run has passed when it went to its end
and every entry is a success.
-/
namespace UiRunner.Run

open Decimal

inductive Status where
  | success
  | failure
  | skipped
deriving DecidableEq, Repr

def Status.name : Status → String
  | .success => "success"
  | .failure => "failure"
  | .skipped => "skipped"

structure Entry where
  /-- The place of the step, counted from one; zero for what is no step. -/
  index : Nat
  action : String
  status : Status
  message : String
  duration : Span
deriving DecidableEq, Repr

structure Log where
  entries : List Entry := []
  aborted : Bool := false
  cancelled : Bool := false
deriving DecidableEq, Repr

namespace Log

def push (l : Log) (e : Entry) : Log := { l with entries := l.entries ++ [e] }

def abort (l : Log) : Log := { l with aborted := true }

def cancel (l : Log) : Log := { l with cancelled := true }

def passed (l : Log) : Bool :=
  l.entries.all (·.status == .success) && !l.aborted && !l.cancelled

theorem passed_iff (l : Log) : l.passed = true ↔
    (∀ e ∈ l.entries, e.status = .success) ∧ l.aborted = false ∧ l.cancelled = false := by
  simp [passed, and_assoc]

end Log

/-- The name of a verdict. -/
def verdictName (passed : Bool) : String := if passed then "success" else "failure"

structure Report where
  name : String
  passed : Bool
  entries : List Entry
  cancelled : Bool
  duration : Span
deriving DecidableEq, Repr

def Report.ofLog (name : String) (l : Log) (duration : Span) : Report :=
  ⟨name, l.passed, l.entries, l.cancelled, duration⟩

/-! ## The report as JSON -/

def secondsJson (d : Span) : Json := .num (.float d.seconds)

def Entry.json (e : Entry) : Json :=
  .obj
    [("step_index", .nat e.index), ("action_name", .str e.action), ("status", .str e.status.name),
     ("message", .str e.message), ("duration_secs", secondsJson e.duration)]

def Report.json (r : Report) : Json :=
  .obj
    [("name", .str r.name), ("overall_status", .str (verdictName r.passed)),
     ("log", .arr (r.entries.map Entry.json)), ("cancelled", .bool r.cancelled),
     ("duration_secs", secondsJson r.duration)]

/-! ## The report for people -/

open Text

def Status.mark (p : Paint) : Status → String
  | .success => p.style [.green] "✓"
  | .failure => p.style [.red] "✗"
  | .skipped => p.style [.yellow] "-"

/-- Seconds with two places. -/
def shownSeconds (d : Span) : String := d.seconds.fixed 2

def Entry.label (e : Entry) : String :=
  if e.index = 0 then e.action else s!"Step {natText e.index}: {e.action}"

def Entry.line (p : Paint) (e : Entry) : String :=
  "  " ++ e.status.mark p ++ " " ++ e.label ++ " " ++ p.style [.dimmed] e.message ++ " " ++
    p.style [.dimmed] s!"({shownSeconds e.duration}s)"

/-- How many steps passed in what time. -/
def Report.summary (r : Report) : String :=
  let passed := (r.entries.filter (·.status == .success)).length
  s!"{natText passed}/{natText r.entries.length} steps passed in {shownSeconds r.duration}s"

def Report.verdictLine (p : Paint) (r : Report) : String :=
  let (color, mark, verdict) :=
    if r.passed then (Style.green, "✓", "Test Passed") else (Style.red, "✗", "Test Failed")
  p.style [.bold, color] mark ++ " " ++ p.style [.bold, color] verdict ++ " " ++
    p.style [.dimmed] r.summary

def Report.shown (p : Paint) (r : Report) : String :=
  "\n" ++ p.style [.bold, .blue] "Test Case:" ++ " " ++ p.style [.bold, .white] r.name ++ "\n" ++
    String.join (r.entries.map fun e => e.line p ++ "\n") ++
    (if r.cancelled then "\n  " ++ p.style [.yellow] "Run cancelled" ++ "\n" else "") ++
    "\n" ++ r.verdictLine p ++ "\n"

end UiRunner.Run
