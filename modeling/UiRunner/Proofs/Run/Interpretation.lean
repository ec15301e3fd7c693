import UiRunner.Proofs.Run.Step

/-!
# What interpreting steps leaves in a log

`Walk` describes the walk over the steps without its requests: which entry each executed step
leaves, and why the walk halted. `walk_of_interpretFrom` says that the interpreter does nothing
else, and the laws of the log follow by induction on the walk.
-/
namespace UiRunner.Run

open Routine UiRunner.Action

/-- Giving up a request of an action panicked, and the interpreter with it. -/
def Crashes (t : Trace) : Prop :=
  ∃ (r : Action.Request) (cutoff : Option Nat) (q : Panic), ⟨.act r cutoff, Fate.crashed q⟩ ∈ t

theorem not_crashes_nil : ¬ Crashes [] := by
  rintro ⟨_, _, _, h⟩
  cases h

theorem crashes_append_iff {xs ys : Trace} :
    Crashes (xs ++ ys) ↔ Crashes xs ∨ Crashes ys := by
  simp only [Crashes, List.mem_append, exists_or]

theorem crashes_act_cons_iff {r : Action.Request} {cutoff : Option Nat} {f : Fate r.Answer}
    {xs : Trace} : Crashes (⟨.act r cutoff, f⟩ :: xs) ↔ (∃ q, f = .crashed q) ∨ Crashes xs := by
  constructor
  · rintro ⟨r', cutoff', q, h⟩
    obtain h | h := List.mem_cons.1 h
    · cases h
      exact .inl ⟨q, rfl⟩
    · exact .inr ⟨r', cutoff', q, h⟩
  · rintro (⟨q, rfl⟩ | ⟨r', cutoff', q, h⟩)
    · exact ⟨r, cutoff, q, List.mem_cons_self⟩
    · exact ⟨r', cutoff', q, List.mem_cons_of_mem _ h⟩

/-- An exchange that is none of an action leaves it to the rest of the trace. -/
theorem crashes_cons_iff_of_ne {r : Request} {x : r.Answer} {xs : Trace}
    (other : ∀ q cutoff, r ≠ .act q cutoff) : Crashes (⟨r, x⟩ :: xs) ↔ Crashes xs := by
  constructor
  · rintro ⟨r', cutoff', q, h⟩
    obtain h | h := List.mem_cons.1 h
    · cases h
      exact absurd rfl (other r' cutoff')
    · exact ⟨r', cutoff', q, h⟩
  · rintro ⟨r', cutoff', q, h⟩
    exact ⟨r', cutoff', q, List.mem_cons_of_mem _ h⟩

/-- Whether a request can be one of executing steps. -/
def Request.isOfSteps : Request → Bool
  | .act .. | .now | .cancelled => true
  | _ => false

/-! ## One step -/

section Script

variable {α : Type} {cutoff : Option Nat}

/-- A script asks for nothing but what its action asks for. -/
theorem within_asks {P : Request → Prop} (act : ∀ q, P (.act q cutoff))
    (p : Routine Action.stage α) : Asks P (within cutoff p) := by
  induction p with
  | done a => trivial
  | ask r next ih =>
    rw [within]
    refine ⟨act r, fun x => ?_⟩
    cases x with
    | answered a => exact ih a
    | panicked | cut | crashed => trivial

/-- A script ends in a crash exactly when it was answered with one. -/
theorem crashes_iff_of_within {p : Routine Action.stage α} {xs : Trace} {f : Fate α}
    (h : Ends (within cutoff p) xs f) : Crashes xs ↔ ∃ q, f = .crashed q := by
  induction p generalizing xs with
  | done a =>
    obtain ⟨rfl, rfl⟩ := ends_done_iff.1 h
    simp [not_crashes_nil]
  | ask r next ih =>
    rw [within] at h
    obtain ⟨x, ys, rfl, rest⟩ := ends_ask_iff.1 h
    cases x with
    | answered a => simp [crashes_act_cons_iff, ih a rest]
    | panicked | cut | crashed =>
      obtain ⟨rfl, rfl⟩ := ends_done_iff.1 rest
      simp [crashes_act_cons_iff, not_crashes_nil]

/-- A value that an action comes to is one of an ending of its script. -/
theorem ends_of_within {p : Routine Action.stage α} {xs : Trace} {a : α}
    (h : Ends (within cutoff p) xs (.answered a)) : ∃ ys, Ends p ys a := by
  induction p generalizing xs with
  | done b =>
    obtain ⟨-, same⟩ := ends_done_iff.1 h
    cases same
    exact ⟨[], .done a⟩
  | ask r next ih =>
    rw [within] at h
    obtain ⟨x, zs, rfl, rest⟩ := ends_ask_iff.1 h
    cases x with
    | answered b =>
      obtain ⟨ys, ends⟩ := ih b rest
      exact ⟨_, .ask ends⟩
    | panicked | cut | crashed => cases (ends_done_iff.1 rest).2

end Script

namespace Policy

variable {p : Policy} {step : Step} {steps : List Step} {k : Nat}

/-- A step asks for the time, and for what its action asks for. -/
theorem execute_asks_of {P : Request → Prop} (now : P .now) (act : ∀ q cutoff, P (.act q cutoff))
    (p : Policy) (step : Step) : Asks P (p.execute step) := by
  rw [execute_eq]
  split
  · trivial
  · exact ⟨now, fun t => (within_asks (fun q => act q _) _).bind fun _ => trivial⟩

theorem execute_asks (p : Policy) (step : Step) :
    Asks (fun r : Request => r.isOfSteps) (p.execute step) :=
  execute_asks_of (P := fun r => r.isOfSteps) rfl (fun _ _ => rfl) p step

theorem result_eq_error_iff {name : String} {f : Fate (Except Error Outcome)} :
    (∃ q, p.result name f = .error q) ↔ ∃ q, f = .crashed q := by
  rcases f with (_ | _) | _ | _ | _ <;> simp [result]

/-- A panic of the interpreter while it executes a step is a request that crashed. -/
theorem crashes_iff_of_execute {xs : Trace} {res : Except Panic StepResult}
    (h : Ends (p.execute step) xs res) : Crashes xs ↔ ∃ q, res = .error q := by
  obtain ⟨r, -, rfl, rfl⟩ | ⟨d, ps, t, ys, f, -, rfl, script, rfl⟩ := ends_execute_cases h
  · simp [not_crashes_nil]
  · rw [crashes_cons_iff_of_ne (by simp), crashes_iff_of_within script]
    exact result_eq_error_iff.symm

end Policy

/-! ## All steps -/

/-- Why a walk over steps halted. -/
inductive Halt where
  /-- No step was left. -/
  | finished
  | cancelled
  /-- The last result was one after which no step is executed. -/
  | stopped
  | crashed (q : Panic)

namespace Halt

def panic? : Halt → Option Panic
  | .crashed q => some q
  | _ => none

/-- The log of a walk that halted so. -/
def close : Halt → Log → Log
  | .cancelled, l => l.cancel
  | .stopped, l => l.abort
  | _, l => l

@[simp] theorem close_entries (h : Halt) (l : Log) : (h.close l).entries = l.entries := by
  cases h <;> rfl

end Halt

/-- What the step at a place leaves in the log. -/
def StepResult.entry (r : StepResult) (k : Nat) (s : Step) (start finish : Nat) : Entry :=
  ⟨k, s.action, r.recorded.1, r.recorded.2, .ofMillis (finish - start)⟩

/-- A walk over steps, counted from `k` on: what is asked, which entries are left and why it
halts. -/
inductive Walk (p : Policy) : Nat → List Step → Trace → List Entry → Halt → Prop where
  | finished (k : Nat) : Walk p k [] [] [] .finished
  | cancelled (k : Nat) (s : Step) (rest : List Step) :
      Walk p k (s :: rest) [⟨.cancelled, true⟩] [] .cancelled
  | crashed {k : Nat} {s : Step} {rest : List Step} {xs : Trace} {q : Panic} (t : Nat) :
      Ends (p.execute s) xs (.error q) →
      Walk p k (s :: rest) (⟨.cancelled, false⟩ :: ⟨.now, t⟩ :: xs) [] (.crashed q)
  | stopped {k : Nat} {s : Step} {rest : List Step} {xs : Trace} {r : StepResult} (t u : Nat) :
      Ends (p.execute s) xs (.ok r) → p.stops r = true →
      Walk p k (s :: rest) (⟨.cancelled, false⟩ :: ⟨.now, t⟩ :: (xs ++ [⟨.now, u⟩]))
        [r.entry k s t u] .stopped
  | step {k : Nat} {s : Step} {rest : List Step} {xs ys : Trace} {r : StepResult}
      {es : List Entry} {h : Halt} (t u : Nat) :
      Ends (p.execute s) xs (.ok r) → p.stops r = false → Walk p (k + 1) rest ys es h →
      Walk p k (s :: rest) (⟨.cancelled, false⟩ :: ⟨.now, t⟩ :: (xs ++ ⟨.now, u⟩ :: ys))
        (r.entry k s t u :: es) h

namespace Policy

variable {p : Policy} {step : Step} {steps : List Step} {k : Nat}

/-- The interpreter walks over the steps and adds the entries of the walk to the log. -/
theorem walk_of_interpretFrom {log : Log} {xs : Trace} {out : Log × Option Panic}
    (h : Ends (p.interpretFrom k steps log) xs out) :
    ∃ es halt, Walk p k steps xs es halt ∧
      out = (halt.close { log with entries := log.entries ++ es }, halt.panic?) := by
  induction steps generalizing k log xs with
  | nil =>
    obtain ⟨rfl, rfl⟩ := ends_done_iff.1 h
    exact ⟨[], .finished, .finished k, by simp [Halt.close, Halt.panic?]⟩
  | cons s rest ih =>
    rw [interpretFrom] at h
    obtain ⟨c, ys, rfl, afterCancelled⟩ := ends_ask_bind_iff.1 h
    cases c with
    | true =>
      obtain ⟨rfl, rfl⟩ := ends_done_iff.1 afterCancelled
      exact ⟨[], .cancelled, .cancelled k s rest, by simp [Halt.close, Halt.panic?]⟩
    | false =>
      obtain ⟨t, zs, rfl, afterNow⟩ := ends_ask_bind_iff.1 afterCancelled
      obtain ⟨xs, us, res, rfl, executed, afterStep⟩ := ends_bind_iff.1 afterNow
      cases res with
      | error q =>
        obtain ⟨rfl, rfl⟩ := ends_done_iff.1 afterStep
        refine ⟨[], .crashed q, ?_, by simp [Halt.close, Halt.panic?]⟩
        simpa using Walk.crashed t executed
      | ok r =>
        obtain ⟨u, vs, rfl, last⟩ := ends_ask_bind_iff.1 afterStep
        cases stops : p.stops r with
        | true =>
          simp only [stops, ite_true] at last
          obtain ⟨rfl, rfl⟩ := ends_done_iff.1 last
          exact ⟨_, .stopped, .stopped t u executed stops, rfl⟩
        | false =>
          simp only [stops, Bool.false_eq_true, ite_false] at last
          obtain ⟨es, halt, walk, rfl⟩ := ih last
          exact ⟨_, halt, .step t u executed stops walk, by simp [Log.push, StepResult.entry]⟩

theorem interpretFrom_asks (p : Policy) (k : Nat) (steps : List Step) (log : Log) :
    Asks (fun r : Request => r.isOfSteps) (p.interpretFrom k steps log) := by
  induction steps generalizing k log with
  | nil => trivial
  | cons s rest ih =>
    rw [interpretFrom]
    refine asks_ask_bind_iff.2 ⟨rfl, fun cancelled => ?_⟩
    split
    · trivial
    · refine asks_ask_bind_iff.2 ⟨rfl, fun t => (p.execute_asks s).bind fun res => ?_⟩
      cases res with
      | error q => trivial
      | ok r =>
        refine asks_ask_bind_iff.2 ⟨rfl, fun u => ?_⟩
        dsimp only
        split
        · trivial
        · exact ih _ _

/-- Only a failure keeps the next step from being executed. -/
theorem recorded_of_stops {r : StepResult} (h : p.stops r = true) : r.recorded.1 = .failure := by
  simp only [stops, Bool.or_eq_true, Bool.and_eq_true, beq_iff_eq] at h
  obtain fatal | ⟨failure, -⟩ := h
  · cases r with
    | error e => rfl
    | ok o => simp [StepResult.isFatal] at fatal
  · exact failure

end Policy

namespace Walk

variable {p : Policy} {k : Nat} {steps : List Step} {xs : Trace} {es : List Entry} {h : Halt}

/-- Entries stand in the order of the steps, and each names its place and the action of its
step. -/
theorem entry_at (walk : Walk p k steps xs es h) {i : Nat} {e : Entry} (at_ : es[i]? = some e) :
    ∃ s, steps[i]? = some s ∧ e.index = k + i ∧ e.action = s.action := by
  induction walk generalizing i with
  | finished | cancelled | crashed => simp at at_
  | stopped t u _ _ =>
    cases i with
    | zero =>
      obtain rfl := by simpa using at_
      exact ⟨_, rfl, rfl, rfl⟩
    | succ i => simp at at_
  | step t u _ _ _ ih =>
    cases i with
    | zero =>
      obtain rfl := by simpa using at_
      exact ⟨_, rfl, rfl, rfl⟩
    | succ i =>
      obtain ⟨s, step, index, action⟩ := ih (by simpa using at_)
      exact ⟨s, by simpa using step, by omega, action⟩

/-- A walk that finished has left an entry for every step. -/
theorem length_eq (walk : Walk p k steps xs es h) (finished : h = .finished) :
    es.length = steps.length := by
  induction walk with
  | finished => rfl
  | cancelled | crashed | stopped => cases finished
  | step _ _ _ _ _ ih => simp [ih finished]

/-- A walk that has left an entry for every step, and successes only, has finished. -/
theorem finished_of_length_eq (walk : Walk p k steps xs es h) (length : es.length = steps.length)
    (success : ∀ e ∈ es, e.status = .success) : h = .finished := by
  induction walk with
  | finished => rfl
  | cancelled | crashed => simp at length
  | stopped t u _ stops =>
    have failure := success _ List.mem_cons_self
    rw [StepResult.entry, Policy.recorded_of_stops stops] at failure
    cases failure
  | step _ _ _ _ _ ih =>
    exact ih (by simpa using length) fun e he => success e (List.mem_cons_of_mem _ he)

theorem isOfSteps (walk : Walk p k steps xs es h) : ∀ x ∈ xs, x.request.isOfSteps := by
  induction walk with
  | finished => simp
  | cancelled => simp [Request.isOfSteps]
  | crashed t executed | stopped t u executed =>
    have := executed.asks (p.execute_asks _)
    simpa [or_imp, forall_and, Request.isOfSteps] using this
  | step t u executed _ _ ih =>
    have := executed.asks (p.execute_asks _)
    simp only [List.forall_mem_cons, List.forall_mem_append]
    exact ⟨rfl, rfl, this, rfl, ih⟩

/-- The interpreter panicked exactly when a request crashed. -/
theorem crashes_iff (walk : Walk p k steps xs es h) : Crashes xs ↔ ∃ q, h = .crashed q := by
  induction walk with
  | finished => simp [not_crashes_nil]
  | cancelled => simp [crashes_cons_iff_of_ne, not_crashes_nil]
  | crashed t executed | stopped t u executed =>
    simp [crashes_cons_iff_of_ne, crashes_append_iff, Policy.crashes_iff_of_execute executed,
      not_crashes_nil]
  | step t u executed _ _ ih =>
    simp [crashes_cons_iff_of_ne, crashes_append_iff, Policy.crashes_iff_of_execute executed, ih]

end Walk

end UiRunner.Run
