import UiRunner.Console.Host
import UiRunner.TestCase.Reader

/-!
# The run command

Reads a test case and the capabilities, runs the case in a session of its own, and prints the
report. It succeeds when the report has passed.
-/
namespace UiRunner.Console

variable {σ : Type}

structure RunOptions where
  case : Path
  json : Bool := false
deriving DecidableEq, Repr

def shownReport (p : Text.Paint) (json : Bool) (r : Run.Report) : String :=
  if json then r.json.pretty ++ "\n" else r.shown p

def runCase (h : Host σ) (s : Settings) (o : RunOptions) (d : Desk σ) : Verdict × Desk σ :=
  match TestCase.load d.files o.case with
  | .error e => (.error e, d)
  | .ok case =>
    match h.sessionConfig s d.files with
    | .error e => (.error e, d)
    | .ok config =>
      match h.perform s ((s.orchestrator config).execute case) d with
      | (.error e, d) => (.error e, d)
      | (.ok report, d) => (.ok report.passed, d.print (shownReport h.paint o.json report))

end UiRunner.Console
