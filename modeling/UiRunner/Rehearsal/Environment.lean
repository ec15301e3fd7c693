import UiRunner.Rehearsal.Screen
import UiRunner.WebDriver.Client

/-!
# Rehearsals

A run against a scripted screen: commands go to the screen, each attempt to connect takes the next
scripted outcome, and only the checks look at the real surroundings.
-/
namespace UiRunner.Rehearsal

open Device Run Session

/-- The scripted outcome of an attempt to connect. -/
structure Connection where
  takes : Nat := 0
  error : Option Error := none
deriving DecidableEq, Repr

structure State where
  screen : Screen := {}
  /-- The outcomes of the next attempts; later attempts succeed at once. -/
  connections : List Connection := []

def sessionId : SessionId := "scripted"

def crashPanic : Panic := ⟨"scripted crash"⟩

/-- How long a pause of so many milliseconds lasts. -/
def lasting (now ms : Nat) : Nat := Clock.wake now (.ofMillis ms) - now

/-- The reaction to a command under a disturbance. -/
def disturbed (now : Nat) (c : Command) (begun : State) (d : Disturbance) :
    Reaction State (Attempt c.Answer) where
  begun := begun
  takes := match d.ending with
    | some .hangs | some .crashes => none
    | _ => some (lasting now d.delay)
  finish s := match d.ending with
    | some (.fails e) => (.ok (.error e), s)
    | some (.panics p) => (.error p, s)
    | _ =>
      let (a, screen) := s.screen.answer c
      (.ok (.ok a), { s with screen })
  cancels := d.cancels
  onGiveUp := match d.ending with
    | some .crashes => some crashPanic
    | _ => none

def command (now : Nat) (c : Command) (s : State) : Reaction State (Attempt c.Answer) :=
  disturbed now c { s with screen := { s.screen with calls := s.screen.calls + 1 } }
    (Disturbance.ofEffects s.screen.effects {})

def connect (now : Nat) (s : State) : Reaction State (Attempt SessionId) :=
  let c := s.connections.headD {}
  { begun := { s with connections := s.connections.tail }
    takes := some (lasting now c.takes)
    finish := fun s => (.ok (match c.error with
      | some e => .error e
      | none => .ok sessionId), s) }

def quit (s : State) : Reaction State (Except Error Unit) where
  begun := s
  finish s := (if s.screen.quitFails then .error (.driver "session already gone") else .ok (), s)

/-- The outside of a rehearsal with these surroundings. -/
def environment (net : Http.Network Unit) (adb : Adb.Installation) : Environment State where
  command := command
  check now c config s := match c with
    | .server =>
      let (verdict, takes, _) := WebDriver.checkStatus net config { net := () }
      { begun := s, takes := some takes, finish := fun s => (.ok verdict, s) }
    | c => { begun := s, takes := some (lasting now (c.takes adb))
             finish := fun s => (.ok (c.verdict adb config), s) }
  connect now _ s := connect now s
  quit _ s := quit s

end UiRunner.Rehearsal
