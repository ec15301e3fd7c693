import UiRunner.Run.Stage

/-!
# Running

A world holds everything that a run can change: the clock, the files, the session slot, and the
state of what is outside, of which only an `Environment` knows more. A request is begun at one
instant and answered at a later one, so a run can be left while it waits (`Pending`) and taken up
again, or be dropped.
-/
namespace UiRunner.Run

open Session

/-- How the outside reacts to a call. -/
structure Reaction (σ α : Type) where
  /-- The state once the call is under way. -/
  begun : σ
  /-- Milliseconds until the answer; without them there is never one. -/
  takes : Option Nat := some 0
  /-- An answer that takes no time is there as soon as the call is begun. -/
  atOnce : Bool := true
  /-- The answer, and the state after it. -/
  finish : σ → α × σ
  /-- The call asks for the run to be cancelled. -/
  cancels : Bool := false
  /-- Giving up the call panics. -/
  onGiveUp : Option Panic := none

/-- What is outside of a run. It may know what time it is. -/
structure Environment (σ : Type) where
  command : Nat → (c : Device.Command) → σ → Reaction σ (Attempt c.Answer)
  check : Nat → Check → Config → σ → Reaction σ (Attempt Unit)
  connect : Nat → Config → σ → Reaction σ (Attempt SessionId)
  quit : Nat → σ → Reaction σ (Except Error Unit)
  storage : Files.Storage := .plain
  /-- Milliseconds that an operation on the files takes. -/
  storing : Nat → Action.Request → σ → Nat := fun _ _ _ => 0

structure World (σ : Type) where
  /-- Milliseconds on the clock. -/
  now : Nat := 0
  outside : σ
  files : Files.Tree := {}
  slot : Slot := {}
  /-- From when on the run counts as cancelled. -/
  cancelAt : Option Nat := none
  /-- The calls that were begun and when, the last one first. -/
  journal : List (Nat × Call) := []

/-- A request under way: when it is answered, and how. -/
structure Underway (σ α : Type) where
  world : World σ
  due : Option Nat
  finish : World σ → α × World σ
  /-- An answer that is due when the request is begun is there then. -/
  atOnce : Bool := true
  /-- Giving the request up panics. -/
  onGiveUp : Option Panic := none

namespace World

variable {σ α β : Type}

def isCancelled (w : World σ) : Bool :=
  match w.cancelAt with
  | some t => t ≤ w.now
  | none => false

/-- Cancels the run now, unless it already is. -/
def signal (w : World σ) : World σ :=
  if w.isCancelled then w else { w with cancelAt := some w.now }

/-- The clock is never set back. -/
def reach (w : World σ) (instant : Nat) : World σ := { w with now := max w.now instant }

/-- The calls in order. -/
def calls (w : World σ) : List (Nat × Call) := w.journal.reverse

/-- A request that needs no time. -/
def immediate (w : World σ) (answer : World σ → α × World σ) : Underway σ α where
  world := w
  due := some w.now
  finish := answer

/-- A call goes out. -/
def call (w : World σ) (c : Call) (r : Reaction σ α) : Underway σ α where
  world := { w with outside := r.begun, journal := (w.now, c) :: w.journal }
  due := r.takes.map (w.now + ·)
  finish w :=
    let (a, outside) := r.finish w.outside
    let w := { w with outside }
    (a, if r.cancels then w.signal else w)
  atOnce := r.atOnce
  onGiveUp := r.onGiveUp

def pause (w : World σ) (d : Span) : Underway σ Unit where
  world := w
  due := some (Clock.wake w.now d)
  finish w := ((), w)

/-- Hands an operation on the files to a thread of its own. It is carried out whether or not anyone
waits for it, and what came of it is never there at once. -/
def store (w : World σ) (ms : Nat) (op : Files.Tree → α × Files.Tree) : Underway σ α where
  world := { w with files := (op w.files).2 }
  due := some (w.now + ms)
  finish v := ((op w.files).1, v)
  atOnce := false

def never (w : World σ) : Underway σ (Fate α) where
  world := w
  due := none
  finish w := (.cut, w)

end World

namespace Underway

variable {σ α β : Type}

def map (f : α → β) (u : Underway σ α) : Underway σ β :=
  { u with finish := fun w => let (a, w) := u.finish w; (f a, w) }

/-- Whether an answer comes by an instant. One that comes at that instant comes in time. -/
def comesBy (due limit : Option Nat) : Bool :=
  match due, limit with
  | none, _ => false
  | some _, none => true
  | some t, some l => t ≤ l

/-- Whether the answer is there when an instant is over. -/
def isInTime (u : Underway σ α) (cutoff : Nat) : Bool :=
  comesBy u.due (some cutoff) && (u.atOnce || u.world.now < cutoff)

/-- Waits no longer than to an instant. -/
def cutAt (u : Underway σ (Fate α)) (cutoff : Option Nat) : Underway σ (Fate α) :=
  match cutoff with
  | none => u
  | some c =>
    if u.isInTime c then u
    else { world := u.world, due := some c, finish := fun w => (.ofGiveUp u.onGiveUp, w) }

end Underway

namespace World

variable {σ : Type}

/-- Begins a request of an action, and waits as long as its answer takes. -/
def await (env : Environment σ) (w : World σ) : (r : Action.Request) → Underway σ (Fate r.Answer)
  | .command c => (w.call (.command c) (env.command w.now c w.outside)).map Fate.ofExcept
  | .pause d => (w.pause d).map Fate.answered
  | .now => w.immediate fun w => (.answered w.now, w)
  | .makeDirectories p =>
    (w.store (env.storing w.now (.makeDirectories p) w.outside) fun t =>
      env.storage.makeDirectories t p).map Fate.answered
  | .write p content =>
    (w.store (env.storing w.now (.write p content) w.outside) fun t =>
      env.storage.save t p content).map Fate.answered
  | .forever => w.never

/-- Begins a request of an action. Only looking at the clock is not waited for. -/
def act (env : Environment σ) (w : World σ) (cutoff : Option Nat) (r : Action.Request) :
    Underway σ (Fate r.Answer) :=
  match r with
  | .now => w.await env .now
  | r => (w.await env r).cutAt cutoff

/-- Begins a request. -/
def begin (env : Environment σ) (w : World σ) : (r : Request) → Underway σ r.Answer
  | .act r cutoff => w.act env cutoff r
  | .check c config => w.call (.check c) (env.check w.now c config w.outside)
  | .connect config => w.call (.connect config) (env.connect w.now config w.outside)
  | .settle d => w.pause d
  | .quit => w.call .quit (env.quit w.now w.outside)
  | .now => w.immediate fun w => (w.now, w)
  | .cancelled => w.immediate fun w => (w.isCancelled, w)
  | .slot op => w.immediate fun w =>
    let (x, slot) := w.slot.apply op
    (x, { w with slot })

end World

/-- A run that waits for an answer. -/
structure Pending (σ α : Type) where
  request : Request
  due : Option Nat
  finish : World σ → request.Answer × World σ
  next : request.Answer → Course α

/-- How far a run has come. -/
inductive Progress (σ α : Type) where
  | finished (a : α)
  | waiting (p : Pending σ α)

variable {σ α : Type}

/-- Runs to the end, or to the first answer that does not come by the given instant. -/
def Course.run (env : Environment σ) (limit : Option Nat) :
    Course α → World σ → Progress σ α × World σ
  | .done a, w => (.finished a, w)
  | .ask r next, w =>
    let u := w.begin env r
    if Underway.comesBy u.due limit then
      let (x, w) := u.finish (u.world.reach (u.due.getD 0))
      run env limit (next x) w
    else (.waiting ⟨r, u.due, u.finish, next⟩, u.world)

namespace Pending

/-- Takes a run up again. -/
def resume (env : Environment σ) (limit : Option Nat) (p : Pending σ α) (w : World σ) :
    Progress σ α × World σ :=
  if Underway.comesBy p.due limit then
    let (x, w) := p.finish (w.reach (p.due.getD 0))
    (p.next x).run env limit w
  else (.waiting p, w)

/-- Gives a run up. -/
def drop (p : Pending σ α) (w : World σ) : World σ := { w with slot := p.request.dropped w.slot }

end Pending

/-- Runs for at most so many milliseconds; a run that is not over by then is dropped. -/
def Course.runWithin (env : Environment σ) (ms : Option Nat) (c : Course α) (w : World σ) :
    Option α × World σ :=
  let limit := ms.map (w.now + ·)
  match c.run env limit w with
  | (.finished a, w) => (some a, w)
  | (.waiting p, w) => (none, p.drop (w.reach (limit.getD 0)))

end UiRunner.Run
