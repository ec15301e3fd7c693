import UiRunner.Proofs.Action.Halting
import UiRunner.Proofs.Run.Limit

/-!
# Runs that come to an end

Where the device answers every command, a case is taken to its end unless one of its steps has no
limit and waits for an element until an instant that is not on the clock.
-/
namespace UiRunner.Run

open Routine UiRunner.Action

variable {σ α : Type} {env : Environment σ}

/-- Every command is answered at some time. -/
def Environment.Answers (env : Environment σ) : Prop :=
  ∀ now c s, (env.command now c s).takes.isSome

/-- What a script does next when its first request is answered, and nothing cuts it. -/
theorem within_run_of_answered {r : Action.Request} {next : r.Answer → Routine Action.stage α}
    {w : World σ} {t : Nat} (due : (w.await env r).due = some t)
    (goesOn : ∀ a v, v.now = max w.now t → (w.await env r).finish
      ((w.await env r).world.reach t) = (.answered a, v) →
        ∃ f u, (within none (next a)).run env none v = (.finished f, u)) :
    ∃ f u, (within none (.ask r next)).run env none w = (.finished f, u) := by
  obtain ⟨x, v, answer⟩ : ∃ x v, (w.await env r).finish
      ((w.await env r).world.reach t) = (x, v) := ⟨_, _, rfl⟩
  have fates := World.answer_of_await env w ((w.await env r).world.reach t) due
  rw [← World.act_none] at due answer fates
  obtain ⟨-, now⟩ := World.leads_of_answer answer
  rw [within_run_of_due next due answer]
  rw [World.act_none] at answer fates
  obtain ⟨a, fate⟩ | ⟨q, fate⟩ := fates
  · obtain rfl : x = .answered a := (congrArg Prod.fst answer).symm.trans fate
    exact goesOn a v now answer
  · obtain rfl : x = .panicked q := (congrArg Prod.fst answer).symm.trans fate
    exact ⟨_, v, rfl⟩

/-- A script that comes to an end does so in a world. -/
theorem finished_of_halts (answers : env.Answers) {t : Nat} {q : Routine Action.stage α}
    (halts : Halts t q) {w : World σ} (now : w.now = t) :
    ∃ f u, (within none q).run env none w = (.finished f, u) := by
  induction halts generalizing w with
  | done t a => exact ⟨_, w, rfl⟩
  | @command t c next _ ih =>
    obtain ⟨takes, answered⟩ := Option.isSome_iff_exists.1 (answers w.now c w.outside)
    exact within_run_of_answered (World.due_command answered) fun a v later _ =>
      ih a v.now (by omega) rfl
  | pause _ ih =>
    refine within_run_of_answered rfl fun _ v later _ => ih ?_
    rw [later, now]
    exact Nat.max_eq_right (Clock.le_wake ..)
  | @now t next _ ih =>
    refine within_run_of_answered rfl fun a v later answer => ?_
    have here : v.now = t := by simpa [now] using later
    obtain rfl : t = a := by
      cases answer
      exact here.symm
    exact ih here
  | makeDirectories _ ih | write _ ih =>
    exact within_run_of_answered rfl fun a v later _ => ih a v.now (by omega) rfl

namespace Policy

variable {p : Policy} {step : Step} {steps : List Step} {k : Nat} {w v : World σ}

/-- Without a limit, a step waits for an element, and when that time is over is not on the clock. -/
def Overlong (p : Policy) (step : Step) (now : Nat) : Prop :=
  p.limit = none ∧ ∃ d ps, p.prepare step = .ok (d, ps) ∧ d.behavior.selects = true ∧
    Clock.fits now (.ofSecs (timeoutOf ps)) = false

theorem Overlong.later {now later : Nat} (h : p.Overlong step now) (le : now ≤ later) :
    p.Overlong step later := by
  obtain ⟨unlimited, d, ps, prepared, selects, never⟩ := h
  refine ⟨unlimited, d, ps, prepared, selects, ?_⟩
  rw [← Bool.not_eq_true] at never ⊢
  exact fun fits => never (Clock.fits_of_le fits le)

/-- A step that is never over waits for longer than the clock lasts. -/
theorem overlong_of_waiting (answers : env.Answers)
    {pending : Pending σ (Except Panic StepResult)}
    (run : (p.execute step).run env none w = (.waiting pending, v)) : p.Overlong step w.now := by
  cases prepared : p.prepare step with
  | error r =>
    have refused : (p.execute step).run env none w = _ := run_execute_of_unprepared prepared p.limit
    cases run.symm.trans refused
  | ok action =>
    obtain ⟨d, ps⟩ := action
    have played : (p.execute step).run env none w = _ := run_execute_of_prepared prepared p.limit
    rw [Course.run_bind] at played
    have waits : ∀ f u, (within (p.limit.map (Clock.wake w.now))
        (d.behavior.script p.settings ps).run).run env none w ≠ (.finished f, u) := by
      rintro f u finished
      rw [finished] at played
      cases run.symm.trans played
    cases limit : p.limit with
    | some span =>
      rw [limit, Option.map_some] at waits
      obtain ⟨-, f, u, -, -, -, finished⟩ | ⟨x, r, -, cuts⟩ :=
        within_run_cases env (d.behavior.script p.settings ps).run (Clock.le_wake w.now span)
      · exact absurd finished (waits _ _)
      · exact absurd cuts.cut (waits _ _)
    | none =>
      rw [limit, Option.map_none] at waits
      by_contra ends
      have fits : d.behavior.selects = true →
          Clock.fits w.now (.ofSecs (timeoutOf ps)) = true := by
        intro selects
        by_contra never
        exact ends ⟨limit, d, ps, prepared, selects, by simpa using never⟩
      obtain ⟨f, u, finished⟩ :=
        finished_of_halts answers (d.behavior.halts p.settings ps fits) rfl
      exact waits f u finished

/-- A tour that is never halted has come to a step that is never over. -/
theorem overlong_of_tour (answers : env.Answers) (k : Nat) (steps : List Step) (w : World σ)
    (endless : (p.tour env k steps w).halt = none) :
    ∃ step ∈ steps, p.Overlong step (p.tour env k steps w).world.now := by
  fun_induction tour p env k steps w with
  | case1 | case2 | case4 | case5 => cases endless
  | case3 k s rest w _ pending v run =>
    obtain ⟨xs, leads⟩ := Course.run_leads env none (p.execute s) w
    rw [run] at leads
    exact ⟨s, List.mem_cons_self, (overlong_of_waiting answers run).later leads.le⟩
  | case6 k s rest w _ r v _ _ ih =>
    obtain ⟨step, mem, overlong⟩ := ih endless
    exact ⟨step, List.mem_cons_of_mem _ mem, overlong⟩

end Policy

/-- A run that gets no session reports why, and does nothing else. -/
theorem Orchestrator.run_execute_of_refused {o : Orchestrator} {w v : World σ} {e : Error}
    (case : TestCase)
    (refused : (o.manager.acquire o.config).run env none w = (.finished (.ok (.error e)), v)) :
    ∃ d, (o.execute case).run env none w =
      (.finished (.ok (.ofLog case.name (setupFailure e d) d)), v) := by
  rw [execute, Course.run_now_bind, Course.run_bind, refused]
  dsimp only
  rw [Course.run_bind, since, Course.run_now_bind]
  exact ⟨_, rfl⟩

/-- Nothing but its steps keeps a run in a live session waiting. -/
theorem Orchestrator.overlong_of_waiting (answers : env.Answers) {o : Orchestrator}
    {case : TestCase} {start : Nat} {w v : World σ} {pending : Pending σ Log}
    (run : (o.steps case start).run env none w = (.waiting pending, v)) :
    ∃ step ∈ case.steps, o.policy.Overlong step v.now := by
  obtain ⟨world, result⟩ := o.policy.run_interpretFrom env 1 case.steps {} w
  rw [← Policy.interpret] at world result
  rw [steps, Course.run_bind] at run
  rcases interpreted : (o.policy.interpret case.steps).run env none w with
    ⟨⟨log, _ | q⟩ | unfinished, u⟩
  · rw [interpreted] at run
    cases run
  · rw [interpreted] at run
    change (ask (.slot .markFailed) >>= fun _ => _).run env none u = _ at run
    rw [Course.run_slot_bind, since, Course.run_bind, Course.run_now_bind] at run
    cases run
  · rw [interpreted] at run world result
    obtain ⟨-, rfl⟩ := Prod.mk.inj run
    have endless : (o.policy.tour env 1 case.steps w).halt = none := by
      simpa [Progress.result?] using result.symm
    obtain ⟨step, mem, overlong⟩ := Policy.overlong_of_tour answers 1 case.steps w endless
    rw [← world] at overlong
    exact ⟨step, mem, overlong⟩

end UiRunner.Run
