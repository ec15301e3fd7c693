import UiRunner.Proofs.Console.Agreement

/-!
# The requests of a run

A run asks the server for its status, if it is set to, and then for a session, if its checks have
passed. In the session it sends what its steps call for, and when they are taken it ends the
session. Nothing else is sent.
-/
namespace UiRunner.Console

open Device Http Run WebDriver

variable {σ : Type} {h : Host σ} {s : Settings} {config : Session.Config} {opts : RunOptions}
  {case : TestCase} {d : Desk σ}

section

variable {w : World (Client σ)}

end

/-! ## At a desk -/

section

variable (loads : TestCase.load d.files opts.case = .ok case)
  (configured : h.sessionConfig s d.files = .ok config)

include loads configured

end

end UiRunner.Console
