import Mathlib.Logic.Function.Basic
import UiRunner.Run.Manager
import UiRunner.Run.Trace

/-!
# Clients of a manager

Any number of clients acquire and release sessions at one manager. Each answer that a client gets
is a step of its own, so the clients interleave in any way, and the answers from outside are any.
An acquire can be abandoned while it waits, and a client with a handle can mark the session as
failed at any time, also while the session is being ended.
-/
namespace UiRunner.Run

open Session

/-- What a client is about. -/
inductive Client where
  | away
  | acquiring (c : Course (Attempt SessionId))
  /-- The acquire ended with an error. -/
  | denied (e : Error)
  /-- The acquire panicked. -/
  | broken (p : Panic)
  /-- The acquire was dropped while it waited. -/
  | abandoned
  | holding (id : SessionId)
  | releasing (c : Course Unit)

namespace Client

/-- What a client is about when its acquire has come to this. -/
def ofAcquire : Course (Attempt SessionId) → Client
  | .done (.ok (.ok id)) => .holding id
  | .done (.ok (.error e)) => .denied e
  | .done (.error p) => .broken p
  | .ask r next => .acquiring (.ask r next)

def ofRelease : Course Unit → Client
  | .done () => .away
  | .ask r next => .releasing (.ask r next)

/-- There is no acquire under way and no handle. -/
def isIdle : Client → Bool
  | .away | .denied _ | .broken _ | .abandoned => true
  | .acquiring _ | .holding _ | .releasing _ => false

/-- An acquire is past the gate, and not finished. -/
def Validates (c : Client) : Prop :=
  ∃ (r : Request) (next : r.Answer → Course (Attempt SessionId)),
    c = .acquiring (.ask r next) ∧ r ≠ .slot .enter

/-- A handle was handed out, and is not fully released. -/
def isOutstanding : Client → Bool
  | .holding _ | .releasing _ => true
  | _ => false

end Client

/-- The slot of a manager, and its clients. -/
structure Clients (ι : Type) where
  slot : Slot := {}
  client : ι → Client := fun _ => .away

namespace Clients

variable {ι : Type} [DecidableEq ι]

/-- One client is about something else, and leaves the slot so. -/
def put (s : Clients ι) (i : ι) (slot : Slot) (c : Client) : Clients ι :=
  ⟨slot, Function.update s.client i c⟩

/-- The steps of one client. -/
inductive Step (m : Manager) (i : ι) (s : Clients ι) : Clients ι → Prop where
  | acquire (config : Config) :
      (s.client i).isIdle → Step m i s (s.put i s.slot (.ofAcquire (m.acquire config)))
  | acquiring {r : Request} {next : r.Answer → Course (Attempt SessionId)} {u : Slot}
      (x : r.Answer) : s.client i = .acquiring (.ask r next) → SlotStep s.slot ⟨r, x⟩ u →
      Step m i s (s.put i u (.ofAcquire (next x)))
  | abandon {r : Request} {next : r.Answer → Course (Attempt SessionId)} :
      s.client i = .acquiring (.ask r next) → r.isAwaited →
      Step m i s (s.put i (r.dropped s.slot) .abandoned)
  | release {id : SessionId} :
      s.client i = .holding id → Step m i s (s.put i s.slot (.ofRelease Manager.release))
  | releasing {r : Request} {next : r.Answer → Course Unit} {u : Slot} (x : r.Answer) :
      s.client i = .releasing (.ask r next) → SlotStep s.slot ⟨r, x⟩ u →
      Step m i s (s.put i u (.ofRelease (next x)))
  | markFailed :
      (s.client i).isOutstanding → Step m i s (s.put i s.slot.markFailed (s.client i))

/-- The states that a new manager and its clients can come to. -/
inductive Reachable (m : Manager) : Clients ι → Prop where
  | start : Reachable m {}
  | step {s s' : Clients ι} (i : ι) : Reachable m s → Step m i s s' → Reachable m s'

end Clients

end UiRunner.Run
