import UiRunner.Proofs.Run.Trace
import UiRunner.Run.Interpreter

/-!
# Executing one step

A step is prepared first, which asks for nothing: its action is looked up and its parameters are
coerced. What is prepared is performed between a start and a cutoff.
-/
namespace UiRunner.Run

open Routine UiRunner.Action

theorem eq_of_lookup_eq_error {r : Registry} {name : String} {e : Error}
    (unknown : r.lookup name = .error e) : e = .actionNotFound name := by
  unfold Registry.lookup at unknown
  split at unknown
  · cases unknown
  · exact (Except.error.inj unknown).symm

namespace Policy

/-- The action of a step and its typed parameters, or what the step comes to without them. -/
def prepare (p : Policy) (step : Step) : Except StepResult (Definition × Params) :=
  if Text.isBlankText step.action then .error (.ok none)
  else
    match p.registry.lookup step.action with
    | .error e => .error (.error e)
    | .ok d =>
      match coerce d.params step.params with
      | .error m => .error (.error (.parameterMismatch d.name m.message))
      | .ok ps => .ok (d, ps)

/-- Runs the script of an action for no longer than the limit. -/
def perform (p : Policy) (d : Definition) (ps : Params) : Course (Except Panic StepResult) := do
  let start ← Course.now
  let fate ← within (p.limit.map (Clock.wake start)) (d.behavior.script p.settings ps).run
  pure (p.result d.name fate)

variable {p : Policy} {step : Step}

theorem execute_eq (p : Policy) (step : Step) : p.execute step = match p.prepare step with
    | .error r => .done (.ok r)
    | .ok (d, ps) => p.perform d ps := by
  unfold execute prepare
  split
  · rfl
  · cases p.registry.lookup step.action with
    | error e => rfl
    | ok d =>
      dsimp only
      cases coerce d.params step.params <;> rfl

theorem execute_of_unprepared {r : StepResult} (h : p.prepare step = .error r) :
    p.execute step = .done (.ok r) := by
  rw [execute_eq, h]

theorem execute_of_prepared {d : Definition} {ps : Params} (h : p.prepare step = .ok (d, ps)) :
    p.execute step = p.perform d ps := by
  rw [execute_eq, h]

theorem lookup_of_prepared {d : Definition} {ps : Params} (h : p.prepare step = .ok (d, ps)) :
    p.registry.lookup step.action = .ok d := by
  unfold prepare at h
  split at h
  · cases h
  · split at h
    · cases h
    · split at h
      · cases h
      · cases h
        assumption

/-- A step is over at once, or a script is performed. -/
theorem ends_execute_cases {xs : Trace} {res : Except Panic StepResult}
    (h : Ends (p.execute step) xs res) :
    (∃ r, p.prepare step = .error r ∧ xs = [] ∧ res = .ok r) ∨
      ∃ d ps t ys f, p.prepare step = .ok (d, ps) ∧ xs = ⟨.now, t⟩ :: ys ∧
        Ends (within (p.limit.map (Clock.wake t)) (d.behavior.script p.settings ps).run) ys f ∧
        res = p.result d.name f := by
  cases prepared : p.prepare step with
  | error r =>
    rw [execute_of_unprepared prepared] at h
    obtain ⟨rfl, rfl⟩ := ends_done_iff.1 h
    exact .inl ⟨r, rfl, rfl, rfl⟩
  | ok action =>
    obtain ⟨d, ps⟩ := action
    rw [execute_of_prepared prepared] at h
    obtain ⟨t, ys, rfl, rest⟩ := ends_ask_bind_iff.1 h
    obtain ⟨zs, _, f, rfl, script, last⟩ := ends_bind_iff.1 rest
    obtain ⟨rfl, rfl⟩ := ends_done_iff.1 last
    exact .inr ⟨d, ps, t, zs, f, rfl, by simp, script, rfl⟩

end Policy

end UiRunner.Run
