import UiRunner.Action.Builtin
import UiRunner.Action.Coercion
import UiRunner.TestCase.Basic
import UiRunner.Run.Report
import UiRunner.Run.Stage

/-!
# Interpreting steps

The steps of a case are executed in order, and each leaves one entry in the log. A step without an
action is skipped; an unknown action or a failed check does not stop the run. Bad parameters,
errors of an action, panics inside it and a step that takes too long do.
-/
namespace UiRunner.Run

open UiRunner.Action

/-- How steps are executed. -/
structure Policy where
  registry : Registry := .builtin
  settings : Settings := {}
  /-- The longest a step may take. -/
  limit : Option Span := none
  stopOnFailure : Bool := false

/-- What executing a step comes to; without an outcome the step was skipped. -/
abbrev StepResult := Except Error (Option Outcome)

namespace Policy

/-- The result of a step whose action ended so. -/
def result (p : Policy) (name : String) : Fate (Except Error Outcome) → Except Panic StepResult
  | .answered (.ok outcome) => .ok (.ok (some outcome))
  | .answered (.error e) => .ok (.error (.actionRuntimeFailure name e.message))
  | .panicked q =>
    let e := Error.internal s!"action panicked: {q.message}"
    .ok (.error (.actionRuntimeFailure name e.message))
  | .cut =>
    let secs := ((p.limit.getD .zero).seconds).fixed 1
    .ok (.error (.actionRuntimeFailure name s!"step did not finish within {secs}s"))
  | .crashed q => .error q

/-- Executes one step. A panic is one of the interpreter itself. -/
def execute (p : Policy) (step : Step) : Course (Except Panic StepResult) :=
  if Text.isBlankText step.action then pure (.ok (.ok none))
  else
    match p.registry.lookup step.action with
    | .error e => pure (.ok (.error e))
    | .ok d =>
      match coerce d.params step.params with
      | .error m => pure (.ok (.error (.parameterMismatch d.name m.message)))
      | .ok ps => do
        let start ← Course.now
        let cutoff := p.limit.map (Clock.wake start)
        let fate ← within cutoff (d.behavior.script p.settings ps).run
        pure (p.result d.name fate)

end Policy

/-- The status and the message that a result leaves in the log. -/
def StepResult.recorded : StepResult → Status × String
  | .ok none => (.skipped, "Step has no action name")
  | .ok (some (.passed message)) => (.success, message)
  | .ok (some (.failed message)) => (.failure, message)
  | .error e => (.failure, e.describe)

def StepResult.isFatal : StepResult → Bool
  | .ok _ => false
  | .error e => e.isFatal

namespace Policy

/-- Whether no further step is executed. -/
def stops (p : Policy) (r : StepResult) : Bool :=
  r.isFatal || (r.recorded.1 == .failure && p.stopOnFailure)

/-- Executes the steps from the one at this place on. The log is complete also when the interpreter
panicked. -/
def interpretFrom (p : Policy) (index : Nat) : List Step → Log → Course (Log × Option Panic)
  | [], log => pure (log, none)
  | step :: rest, log => do
    if ← Course.isCancelled then pure (log.cancel, none)
    else
      let start ← Course.now
      match ← p.execute step with
      | .error q => pure (log, some q)
      | .ok result => do
        let finish ← Course.now
        let (status, message) := result.recorded
        let log := log.push ⟨index, step.action, status, message, .ofMillis (finish - start)⟩
        if p.stops result then pure (log.abort, none)
        else p.interpretFrom (index + 1) rest log

def interpret (p : Policy) (steps : List Step) : Course (Log × Option Panic) :=
  p.interpretFrom 1 steps {}

end Policy

end UiRunner.Run
