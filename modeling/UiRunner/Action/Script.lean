import UiRunner.Device.Command
import UiRunner.Files.Storage
import UiRunner.Routine
import UiRunner.Span

/-!
# Scripts

What an action may ask for while it runs: device commands, pauses, the clock and files. A script
is a routine over these requests that ends with a value or with an error; the first failing device
command ends it with that command's error.
-/
namespace UiRunner.Action

/-- How actions are paced and where their files go. -/
structure Settings where
  /-- Milliseconds between two looks at the screen. -/
  pollInterval : Nat := 500
  /-- Milliseconds after an interaction. -/
  interactionPause : Nat := 500
  reportsDir : Path := "reports"
deriving DecidableEq, Repr

inductive Request where
  | command (c : Device.Command)
  | pause (d : Span)
  | now
  | makeDirectories (p : Path)
  | write (p : Path) (content : Bytes)
  /-- Waits for what never happens. -/
  | forever
deriving DecidableEq, Repr

@[reducible] def Request.Answer : Request → Type
  | .command c => Except Error c.Answer
  | .pause _ => Unit
  | .now => Nat
  | .makeDirectories _ => Except Files.Problem Unit
  | .write _ _ => Except Files.Problem Unit
  | .forever => Empty

abbrev stage : Interface := ⟨Request, Request.Answer⟩

abbrev Script (α : Type) := ExceptT Error (Routine stage) α

namespace Script

def ask (r : Request) : Script r.Answer := ExceptT.lift (Routine.request (I := stage) r)

/-- A device command; its error ends the script. -/
def command (c : Device.Command) : Script c.Answer :=
  ExceptT.mk (Routine.request (I := stage) (.command c))

def find (query : Query) : Script (Option Device.ElementId) := command (.find query)

def displayed (e : Device.ElementId) : Script Bool := command (.displayed e)

def enabled (e : Device.ElementId) : Script Bool := command (.enabled e)

def click (e : Device.ElementId) : Script Unit := command (.click e)

def typeKeys (e : Device.ElementId) (text : String) : Script Unit := command (.typeKeys e text)

def textOf (e : Device.ElementId) : Script String := command (.text e)

def activate (app : String) : Script Unit := command (.activate app)

def currentPackage : Script String := command .currentPackage

def pressKey (code : Nat) : Script Unit := command (.pressKey code)

def screenshot : Script Bytes := command .screenshot

def pause (d : Span) : Script Unit := ask (.pause d)

def makeDirectories (p : Path) : Script (Except Files.Problem Unit) := ask (.makeDirectories p)

def write (p : Path) (content : Bytes) : Script (Except Files.Problem Unit) :=
  ask (.write p content)

def now : Script Nat := ask .now

def forever {α : Type} : Script α := do
  let x ← ask .forever
  nomatch (x : Empty)

end Script

end UiRunner.Action
