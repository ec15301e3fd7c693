import UiRunner.Run.World

/-!
# Traces of runs

The exchanges of a run in order, and what they show: the calls that left the program, and what
became of the slot. The slot answers as it stands; every other answer comes from outside and may
be any answer.
-/
namespace UiRunner.Run

open Session

abbrev Exchange := Routine.Exchange stage

abbrev Trace := List Exchange

/-- The call that a request is, if it leaves the program. -/
def Request.call? : Request → Option Call
  | .act (.command c) _ => some (.command c)
  | .check c _ => some (.check c)
  | .connect config => some (.connect config)
  | .quit => some .quit
  | _ => none

def callsOf (t : Trace) : List Call := t.filterMap (·.request.call?)

/-- Whether a run has to wait for the answer. The clock, the cancellation and the slot are looked
at without waiting. -/
def Request.isAwaited : Request → Bool
  | .act .. | .check .. | .connect _ | .settle _ | .quit => true
  | .now | .cancelled | .slot _ => false

/-- What one exchange does to the slot. -/
inductive SlotStep : Slot → Exchange → Slot → Prop where
  | op (s : Slot) (op : Slot.Op) : SlotStep s ⟨.slot op, (s.apply op).1⟩ (s.apply op).2
  | other {r : Request} (s : Slot) (x : r.Answer) :
      (∀ op, r ≠ .slot op) → SlotStep s ⟨r, x⟩ s

/-- What a trace does to the slot. -/
inductive SlotPath : Slot → Trace → Slot → Prop where
  | nil (s : Slot) : SlotPath s [] s
  | cons {s u v : Slot} {x : Exchange} {xs : Trace} :
      SlotStep s x u → SlotPath u xs v → SlotPath s (x :: xs) v

variable {σ α : Type}

/-- The exchanges of a run to its end, or to the first answer that does not come by the given
instant. -/
def Course.trace (env : Environment σ) (limit : Option Nat) : Course α → World σ → Trace
  | .done _, _ => []
  | .ask r next, w =>
    let u := w.begin env r
    if Underway.comesBy u.due limit then
      let (x, w) := u.finish (u.world.reach (u.due.getD 0))
      ⟨r, x⟩ :: trace env limit (next x) w
    else []

end UiRunner.Run
