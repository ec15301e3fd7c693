import Mathlib.Logic.Function.Basic
import UiRunner.Run.Orchestrator
import UiRunner.Run.Trace

/-!
# Runs beside each other

Any number of runs share one world: the clock, the files, the slot and what is outside. One event
after the other happens in it. A run makes a move, which is to begin its next request or to go on
with the answer to the one under way, or time passes, or a run is told to stop. Every way in which
runs can interleave is the play of some list of events.
-/
namespace UiRunner.Run

/-- Where a run stands that is not driven to its end at once. -/
inductive Stand (σ α : Type) where
  | ready (c : Course α)
  | waiting (p : Pending σ α)

/-- A run among others. -/
structure Task (σ α : Type) where
  stand : Stand σ α
  /-- From when on the run counts as cancelled. -/
  cancelAt : Option Nat := none
  /-- The exchanges so far. -/
  trace : Trace := []

namespace Task

variable {σ α : Type}

/-- One move in a world. There is none when the run is over, and while no answer is due. -/
def move (env : Environment σ) (t : Task σ α) (w : World σ) : Option (Task σ α × World σ) :=
  let own := { w with cancelAt := t.cancelAt }
  match t.stand with
  | .ready (.done _) => none
  | .ready (.ask r next) =>
    let u := own.begin env r
    some ({ t with stand := .waiting ⟨r, u.due, u.finish, next⟩ },
      { u.world with cancelAt := w.cancelAt })
  | .waiting p =>
    if Underway.comesBy p.due (some w.now) then
      let (x, v) := p.finish own
      some (⟨.ready (p.next x), v.cancelAt, t.trace ++ [⟨p.request, x⟩]⟩,
        { v with cancelAt := w.cancelAt })
    else none

/-- The run is told to stop. -/
def cancel (t : Task σ α) (w : World σ) : Task σ α :=
  { t with cancelAt := { w with cancelAt := t.cancelAt }.signal.cancelAt }

/-- The calls that went out so far, the one under way included. -/
def calls (t : Task σ α) : List Call :=
  callsOf t.trace ++ match t.stand with
    | .ready _ => []
    | .waiting p => p.request.call?.toList

def result? (t : Task σ α) : Option α :=
  match t.stand with
  | .ready (.done a) => some a
  | _ => none

end Task

/-- What can happen next. -/
inductive Event (ι : Type) where
  | move (i : ι)
  | cancel (i : ι)
  /-- It is this late now. -/
  | time (instant : Nat)

/-- Whether an event is one of these runs. -/
def Event.isOf {ι : Type} (runs : ι → Bool) : Event ι → Bool
  | .move i | .cancel i => runs i
  | .time _ => false

/-- Runs in one world. -/
structure Concourse (ι σ α : Type) where
  world : World σ
  task : ι → Task σ α

namespace Concourse

variable {ι σ α : Type}

def put [DecidableEq ι] (c : Concourse ι σ α) (i : ι) (t : Task σ α) (w : World σ) :
    Concourse ι σ α :=
  ⟨w, Function.update c.task i t⟩

def step [DecidableEq ι] (env : ι → Environment σ) (c : Concourse ι σ α) :
    Event ι → Option (Concourse ι σ α)
  | .move i => ((c.task i).move (env i) c.world).map fun (t, w) => c.put i t w
  | .cancel i => some (c.put i ((c.task i).cancel c.world) c.world)
  | .time instant => some { c with world := c.world.reach instant }

/-- Lets the events happen one after the other, if they can. -/
def play [DecidableEq ι] (env : ι → Environment σ) (c : Concourse ι σ α) (es : List (Event ι)) :
    Option (Concourse ι σ α) :=
  es.foldlM (step env) c

/-- Runs that have not begun. -/
def start (w : World σ) (cancelAt : ι → Option Nat) (course : ι → Course α) :
    Concourse ι σ α :=
  ⟨w, fun i => { stand := .ready (course i), cancelAt := cancelAt i }⟩

/-- The same world, with some of the runs where they were before. -/
def without (c : Concourse ι σ α) (runs : ι → Bool) (before : Concourse ι σ α) :
    Concourse ι σ α :=
  ⟨c.world, fun i => if runs i then before.task i else c.task i⟩

end Concourse

end UiRunner.Run
