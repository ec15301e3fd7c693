import UiRunner.Run.Stage

/-!
# Acquiring and releasing sessions

An acquire enters the slot, makes the checks in order, opens the session and lets it settle. It is
refused at once while the slot is not free. A release ends the session whatever the server answers.
-/
namespace UiRunner.Run

open Session

structure Manager where
  checks : List Check := []
  settle : Span := .zero

namespace Manager

/-- Makes the checks until one does not succeed. -/
def makeChecks (config : Config) : List Check → Course (Attempt Unit)
  | [] => pure (.ok (.ok ()))
  | c :: rest => do
    match ← Course.check c config with
    | .ok (.ok ()) => makeChecks config rest
    | failed => pure failed

/-- The acquire ends without a session. -/
def refuse (e : Error) : Course (Attempt SessionId) := do
  Course.conclude .failed
  pure (.ok (.error e))

/-- A panic goes through the acquire, which is given up. -/
def unwind (p : Panic) : Course (Attempt SessionId) := do
  Course.abandon
  pure (.error p)

def open_ (m : Manager) (config : Config) : Course (Attempt SessionId) := do
  match ← Course.connect config with
  | .error p => unwind p
  | .ok (.error e) => refuse e
  | .ok (.ok id) => do
    if !m.settle.isZero then Course.settle m.settle
    Course.conclude .active
    pure (.ok (.ok id))

def acquire (m : Manager) (config : Config) : Course (Attempt SessionId) := do
  if ← Course.enter then
    match ← makeChecks config m.checks with
    | .error p => unwind p
    | .ok (.error e) => refuse e
    | .ok (.ok ()) => m.open_ config
  else pure (.ok (.error .sessionAlreadyActive))

/-- Errors of the server are of no consequence. -/
def release : Course Unit := do
  let _ ← Course.quit
  Course.vacate

end Manager

end UiRunner.Run
