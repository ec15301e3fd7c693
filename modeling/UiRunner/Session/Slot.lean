/-!
# The session slot

At most one session exists at a time. The slot holds the label that users see, and whether a
handle is outstanding. An acquire enters through `enter?`, which both parts can close.
-/
namespace UiRunner.Session

/-- Where the session is in its life. -/
inductive State where
  /-- Nothing acquired yet. -/
  | uninitialized
  /-- Checks are running or the connection is being opened. -/
  | validating
  /-- A handle is live. -/
  | active
  /-- The last session was released. -/
  | released
  /-- A check, the connection or the live session failed. -/
  | failed
deriving DecidableEq, Repr

def State.name : State → String
  | .uninitialized => "uninitialized"
  | .validating => "validating"
  | .active => "active"
  | .released => "released"
  | .failed => "failed"

structure Slot where
  state : State := .uninitialized
  /-- A handle was handed out and not released yet, whatever the label says. -/
  live : Bool := false
deriving DecidableEq, Repr

namespace Slot

def isFree (s : Slot) : Bool := !s.live && s.state != .validating && s.state != .active

/-- An acquire begins, if the slot is free. -/
def enter? (s : Slot) : Option Slot :=
  if s.isFree then some { s with state := .validating } else none

/-- An acquire ends; it has a handle exactly when it ends active. -/
def conclude (_ : Slot) (state : State) : Slot := ⟨state, state == .active⟩

/-- An acquire is given up before its end. -/
def abandon (s : Slot) : Slot := { s with state := .failed }

/-- The live session is no longer usable. The handle still counts as outstanding. -/
def markFailed (s : Slot) : Slot := { s with state := .failed }

/-- The handle is gone; a failed session stays failed. -/
def vacate (s : Slot) : Slot := ⟨if s.state = .failed then .failed else .released, false⟩

/-- What a run does to the slot. -/
inductive Op where
  | enter
  | conclude (state : State)
  | abandon
  | markFailed
  | vacate
deriving DecidableEq, Repr

/-- Whether an acquire may begin is the only thing to be answered. -/
@[reducible] def Op.Answer : Op → Type
  | .enter => Bool
  | _ => Unit

def apply (s : Slot) : (op : Op) → op.Answer × Slot
  | .enter =>
    match s.enter? with
    | some s' => (true, s')
    | none => (false, s)
  | .conclude state => ((), s.conclude state)
  | .abandon => ((), s.abandon)
  | .markFailed => ((), s.markFailed)
  | .vacate => ((), s.vacate)

@[simp] theorem enter?_eq_none_iff (s : Slot) : s.enter? = none ↔ s.isFree = false := by
  simp [enter?]

end Slot

end UiRunner.Session
