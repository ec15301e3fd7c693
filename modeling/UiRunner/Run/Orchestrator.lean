import UiRunner.Run.Interpreter
import UiRunner.Run.Manager

/-!
# Running a case

One test case is tied to one session: acquire, interpret, release, report. A session that was
acquired is released once, also when the interpreter panics.
-/
namespace UiRunner.Run

structure Orchestrator where
  manager : Manager := {}
  config : Session.Config
  policy : Policy := {}

namespace Orchestrator

/-- The log of a run that got no session. -/
def setupFailure (e : Error) (duration : Span) : Log :=
  Log.abort (Log.push {} ⟨0, "Setup", .failure, e.describe, duration⟩)

/-- The log of a run whose interpreter panicked. -/
def crashed (log : Log) (p : Panic) (duration : Span) : Log :=
  let e := Error.internal s!"step interpreter panicked: {p.message}"
  (log.push ⟨0, "Run", .failure, e.describe, duration⟩).abort

/-- The time since an instant. -/
def since (start : Nat) : Course Span := do
  let now ← Course.now
  pure (.ofMillis (now - start))

/-- Executes the steps in a live session. -/
def steps (o : Orchestrator) (case : TestCase) (start : Nat) : Course Log := do
  match ← o.policy.interpret case.steps with
  | (log, none) => pure log
  | (log, some p) => do
    Course.markFailed
    pure (crashed log p (← since start))

/-- Runs a case from acquire to release. A panic is one of a check or of the connection. -/
def execute (o : Orchestrator) (case : TestCase) : Course (Except Panic Report) := do
  let start ← Course.now
  match ← o.manager.acquire o.config with
  | .error p => pure (.error p)
  | .ok (.error e) => do
    let d ← since start
    pure (.ok (.ofLog case.name (setupFailure e d) d))
  | .ok (.ok _) => do
    let log ← o.steps case start
    Manager.release
    pure (.ok (.ofLog case.name log (← since start)))

end Orchestrator

end UiRunner.Run
