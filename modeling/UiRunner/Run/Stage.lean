import UiRunner.Action.Script
import UiRunner.Session.Check
import UiRunner.Session.Slot

/-!
# What a run asks for

A run talks to the device, the checks, the server and the session slot. A call can return, fail
with an error, or panic; a request of an action can also be cut off when the time of its step is
over, and giving a call up can panic in turn.
-/
namespace UiRunner.Run

open Session

/-- Something broke that no error describes. Not every panic comes with a text. -/
structure Panic where
  text : Option String := none
deriving DecidableEq, Repr

def Panic.message (p : Panic) : String := p.text.getD "unknown panic"

/-- What a call comes to: a panic, an error or an answer. -/
abbrev Attempt (α : Type) := Except Panic (Except Error α)

/-- A name that the server gave to a session. -/
abbrev SessionId := String

/-- What leaves the program. -/
inductive Call where
  | command (c : Device.Command)
  | check (c : Check)
  | connect (config : Config)
  | quit
deriving Repr

/-- What a request of an action comes to. -/
inductive Fate (α : Type) where
  | answered (a : α)
  | panicked (p : Panic)
  /-- The time of the step is over. -/
  | cut
  /-- The time of the step is over, and giving up the request panicked. -/
  | crashed (p : Panic)
deriving Repr

def Fate.ofExcept {α : Type} : Except Panic α → Fate α
  | .ok a => .answered a
  | .error p => .panicked p

/-- What a request comes to that is given up, and that panics then if there is a panic. -/
def Fate.ofGiveUp {α : Type} : Option Panic → Fate α
  | some p => .crashed p
  | none => .cut

inductive Request where
  /-- A request of an action; it is cut off when no answer has come by an instant. -/
  | act (r : Action.Request) (cutoff : Option Nat)
  | check (c : Check) (config : Config)
  | connect (config : Config)
  /-- Gives a fresh session time to settle. -/
  | settle (d : Span)
  | quit
  | now
  | cancelled
  | slot (op : Slot.Op)
deriving Repr

@[reducible] def Request.Answer : Request → Type
  | .act r _ => Fate r.Answer
  | .check .. => Attempt Unit
  | .connect _ => Attempt SessionId
  | .settle _ => Unit
  | .quit => Except Error Unit
  | .now => Nat
  | .cancelled => Bool
  | .slot op => op.Answer

/-- What becomes of the slot when a run is dropped while it waits for an answer. Only while a
session is being acquired does the run hold the slot. -/
def Request.dropped (s : Slot) : Request → Slot
  | .check .. | .connect _ | .settle _ => s.abandon
  | _ => s

abbrev stage : Interface := ⟨Request, Request.Answer⟩

abbrev Course (α : Type) := Routine stage α

def ask (r : Request) : Course r.Answer := Routine.request (I := stage) r

namespace Course

def now : Course Nat := ask .now

def isCancelled : Course Bool := ask .cancelled

def check (c : Check) (config : Config) : Course (Attempt Unit) := ask (.check c config)

def connect (config : Config) : Course (Attempt SessionId) := ask (.connect config)

def settle (d : Span) : Course Unit := ask (.settle d)

def quit : Course (Except Error Unit) := ask .quit

/-- Enters the slot if it is free. -/
def enter : Course Bool := ask (.slot .enter)

def conclude (s : State) : Course Unit := ask (.slot (.conclude s))

def abandon : Course Unit := ask (.slot .abandon)

def markFailed : Course Unit := ask (.slot .markFailed)

def vacate : Course Unit := ask (.slot .vacate)

end Course

/-- Runs an action's script. It ends early when a call panics or the time is over. -/
def within {α : Type} (cutoff : Option Nat) : Routine Action.stage α → Course (Fate α)
  | .done a => .done (.answered a)
  | .ask r next => .ask (.act r cutoff) fun (x : Fate r.Answer) =>
    match x with
    | .answered a => within cutoff (next a)
    | .panicked p => .done (.panicked p)
    | .cut => .done .cut
    | .crashed p => .done (.crashed p)

end UiRunner.Run
