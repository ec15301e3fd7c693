import UiRunner.Device.Command
import UiRunner.Run.Stage

/-!
# Scripted screens

A screen without a device behind it. Its elements come and go with the number of times they were
looked for, and faults disturb chosen calls. Calls are numbered from zero.
-/
namespace UiRunner.Rehearsal

open Device Run

/-- From which count on something holds; without one it never does. -/
abbrev From := Option Nat

def From.holds (from_ : From) (count : Nat) : Bool :=
  match from_ with
  | some k => k ≤ count
  | none => false

/-- How often an element was visited and asked about. -/
structure Counts where
  visits : Nat := 0
  displayed : Nat := 0
  enabled : Nat := 0
deriving DecidableEq, Repr

structure Element where
  query : Query
  text : String := ""
  found : From := some 0
  /-- From which visit on it is gone. -/
  gone : From := none
  displayed : From := some 0
  enabled : From := some 0
  counts : Counts := {}
deriving DecidableEq, Repr

/-- What a fault does to a call. -/
inductive Effect where
  | fails (e : Error)
  | panics (p : Panic)
  /-- The call never returns. -/
  | hangs
  /-- The run is told to stop; the call goes on. -/
  | cancels
  | delays (ms : Nat)
  /-- The call never returns, and giving it up panics. -/
  | crashes
deriving DecidableEq, Repr

/-- The calls that a fault hits. -/
inductive Scope where
  | only (call : Nat)
  | since (call : Nat)
deriving DecidableEq, Repr

def Scope.covers (s : Scope) (call : Nat) : Bool :=
  match s with
  | .only n => call == n
  | .since n => n ≤ call

structure Fault where
  scope : Scope
  effect : Effect
deriving DecidableEq, Repr

structure Screen where
  elements : List Element := []
  /-- The package of the app in front. -/
  foreground : String := ""
  launchIgnored : Bool := false
  quitFails : Bool := false
  png : Bytes := Bytes.ofText "PNG"
  faults : List Fault := []
  /-- How many calls were made. -/
  calls : Nat := 0
deriving DecidableEq, Repr

namespace Screen

/-- Visits the elements that match a query until one of them is found; elements are named by their
place. -/
def visit (query : Query) (place : Nat) : List Element → Option Nat × List Element
  | [] => (none, [])
  | e :: rest =>
    if e.query = query then
      let n := e.counts.visits
      let e' := { e with counts := { e.counts with visits := n + 1 } }
      if e.found.holds n && !e.gone.holds n then (some place, e' :: rest)
      else
        let (found, rest) := visit query (place + 1) rest
        (found, e' :: rest)
    else
      let (found, rest) := visit query (place + 1) rest
      (found, e :: rest)

def element? (s : Screen) (id : ElementId) : Option Element :=
  id.toNat?.bind fun n => s.elements[n]?

def modify (s : Screen) (id : ElementId) (f : Element → Element) : Screen :=
  match id.toNat? with
  | some n => { s with elements := s.elements.modify n f }
  | none => s

/-- The answer to a command when nothing disturbs it, and the screen afterwards. -/
def answer (s : Screen) : (c : Command) → c.Answer × Screen
  | .find query =>
    let (found, elements) := visit query 0 s.elements
    (found.map Decimal.natText, { s with elements })
  | .displayed id =>
    ((s.element? id).any fun e => e.displayed.holds e.counts.displayed,
      s.modify id fun e =>
        { e with counts := { e.counts with displayed := e.counts.displayed + 1 } })
  | .enabled id =>
    ((s.element? id).any fun e => e.enabled.holds e.counts.enabled,
      s.modify id fun e => { e with counts := { e.counts with enabled := e.counts.enabled + 1 } })
  | .click _ => ((), s)
  | .typeKeys _ _ => ((), s)
  | .text id => (((s.element? id).map (·.text)).getD "", s)
  | .activate app => ((), if s.launchIgnored then s else { s with foreground := app })
  | .currentPackage => (s.foreground, s)
  | .pressKey _ => ((), s)
  | .screenshot => (s.png, s)

/-- The effects of the faults that hit the next call, in order. -/
def effects (s : Screen) : List Effect :=
  (s.faults.filter fun f => f.scope.covers s.calls).map (·.effect)

end Screen

/-- What the faults make of a call together. -/
structure Disturbance where
  delay : Nat := 0
  cancels : Bool := false
  /-- The effect that ends the call, if one does. -/
  ending : Option Effect := none

/-- Applies effects in order up to the first one that ends the call. -/
def Disturbance.ofEffects : List Effect → Disturbance → Disturbance
  | [], d => d
  | .delays ms :: rest, d => ofEffects rest { d with delay := d.delay + ms }
  | .cancels :: rest, d => ofEffects rest { d with cancels := true }
  | e :: _, d => { d with ending := some e }

end UiRunner.Rehearsal
