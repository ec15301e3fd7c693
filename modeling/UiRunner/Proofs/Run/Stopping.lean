import UiRunner.Proofs.Run.Tour
import UiRunner.Rehearsal.Environment

/-!
# Stopping at a failure

Whether failures are to stop a run shows in no step, only in whether a next one is executed. So a
run that stops at its first failure is the beginning of the run that goes on.
-/
namespace UiRunner.Run

variable {σ : Type}

namespace Policy

/-- The policy under which any failure stops the run. -/
def strict (p : Policy) : Policy := { p with stopOnFailure := true }

/-- The policy under which only a fatal error stops the run. -/
def lenient (p : Policy) : Policy := { p with stopOnFailure := false }

variable {p : Policy} {env : Environment σ} {k : Nat} {steps : List Step} {w : World σ}
  {r : StepResult}

theorem strict_stops_iff : p.strict.stops r = true ↔ r.recorded.1 = .failure :=
  ⟨recorded_of_stops, fun failure => by simp [stops, strict, failure]⟩

theorem strict_goesOn_iff : p.strict.stops r = false ↔ r.recorded.1 ≠ .failure := by
  rw [← Bool.not_eq_true, strict_stops_iff]

/-! ## Tours -/

/-- Where nothing fails, both policies make for the same tour. -/
theorem tour_strict_of_calm (k : Nat) (steps : List Step) (w : World σ)
    (calm : ∀ t ∈ (p.lenient.tour env k steps w).turns, t.entry.status ≠ .failure) :
    p.strict.tour env k steps w = p.lenient.tour env k steps w := by
  fun_induction tour p.lenient env k steps w with
  | case1 => rfl
  | case2 k s rest w cancelled => exact tour_of_cancelled cancelled
  | case3 k s rest w live pending v run => exact tour_of_waiting (by simpa using live) run
  | case4 k s rest w live q v run => exact tour_of_crash (by simpa using live) run
  | case5 k s rest w live r v run stops =>
    -- A lenient tour stops as well, but then its last turn is a failure.
    exact absurd (recorded_of_stops stops) (calm _ (List.mem_singleton_self _))
  | case6 k s rest w live r v run _ ih =>
    obtain ⟨here, later⟩ := List.forall_mem_cons.1 calm
    rw [tour_of_goesOn (p := p.strict) (by simpa using live) run (strict_goesOn_iff.2 here),
      ih later]

/-- Up to the first failure both go alike, and the strict one ends with it. -/
theorem tour_strict_of_failure {ts us : List (Turn σ)} {t : Turn σ}
    (turns : (p.lenient.tour env k steps w).turns = ts ++ t :: us)
    (calm : ∀ x ∈ ts, x.entry.status ≠ .failure) (failure : t.entry.status = .failure) :
    p.strict.tour env k steps w = ⟨ts ++ [t], some .stopped, t.after⟩ := by
  fun_induction tour p.lenient env k steps w generalizing ts with
  | case1 | case2 | case3 | case4 => simp at turns
  | case5 k s rest w live r v run stops =>
    obtain ⟨rfl, rfl, rfl⟩ := by simpa [List.singleton_eq_append_iff] using turns
    exact tour_of_stops (by simpa using live) run (strict_stops_iff.2 failure)
  | case6 k s rest w live r v run _ ih =>
    have live : w.isCancelled = false := by simpa using live
    cases ts with
    | nil =>
      obtain ⟨rfl, -⟩ := List.cons.inj turns
      exact tour_of_stops live run (strict_stops_iff.2 failure)
    | cons t' ts =>
      obtain ⟨rfl, others⟩ := List.cons.inj turns
      obtain ⟨here, later⟩ := List.forall_mem_cons.1 calm
      rw [tour_of_goesOn (p := p.strict) live run (strict_goesOn_iff.2 here), ih others later]
      rfl

/-! ## Runs -/

/-- **Stopping at a failure only truncates.** When the run that goes on records no failure, the run
that is to stop at one comes to the same. Otherwise its entries are those up to the first failure (a
skipped step is none), its log is aborted and not cancelled, and it ends in the world in which the
other run has executed the step that failed: its calls are those of the other run until then. -/
theorem stopping_truncates {σ : Type} (p : Policy) (env : Environment σ) (steps : List Step)
    (w : World σ) :
    (∀ log panic u, (p.lenient.interpret steps).run env none w = (.finished (log, panic), u) →
      log.entries = (p.lenient.tour env 1 steps w).entries) ∧
    ((∀ e ∈ (p.lenient.tour env 1 steps w).entries, e.status ≠ .failure) →
      ((p.strict.interpret steps).run env none w).2 =
          ((p.lenient.interpret steps).run env none w).2 ∧
        ((p.strict.interpret steps).run env none w).1.result? =
          ((p.lenient.interpret steps).run env none w).1.result?) ∧
    ∀ before e after, (p.lenient.tour env 1 steps w).entries = before ++ e :: after →
      e.status = .failure → (∀ x ∈ before, x.status ≠ .failure) →
      ∃ t, (p.lenient.tour env 1 steps w).turns[before.length]? = some t ∧ t.entry = e ∧
        (p.strict.interpret steps).run env none w =
          (.finished ({ entries := before ++ [e], aborted := true, cancelled := false }, none),
            t.after) ∧
        w.callsSince ((p.lenient.interpret steps).run env none w).2 = w.callsSince t.after ++
          t.after.callsSince ((p.lenient.interpret steps).run env none w).2 := by
  obtain ⟨world, result⟩ := p.lenient.run_interpretFrom env 1 steps {} w
  refine ⟨fun log panic u => entries_of_run_interpret, fun calm => ?_,
    fun before e after entries failure calm => ?_⟩
  · obtain ⟨world', result'⟩ := p.strict.run_interpretFrom env 1 steps {} w
    rw [tour_strict_of_calm 1 steps w (by simpa [Tour.entries] using calm)] at world' result'
    exact ⟨world'.trans world.symm, result'.trans result.symm⟩
  · obtain ⟨ts, rest, turns, rfl, others⟩ := List.map_eq_append_iff.1 entries
    obtain ⟨t, us, rfl, rfl, -⟩ := List.map_eq_cons_iff.1 others
    have at_ : (p.lenient.tour env 1 steps w).turns[ts.length]? = some t := by simp [turns]
    obtain ⟨⟨xs, during⟩, ys, later⟩ := leads_of_turn at_
    have tour := tour_strict_of_failure turns (by simpa using calm) failure
    refine ⟨t, by simpa using at_, rfl, ?_, ?_⟩
    · rw [run_interpret_of_tour tour]
      simp [Halt.close, Halt.panic?, Log.abort]
    · rw [interpret, world]
      exact during.callsSince_append later

/-- A step that is skipped, an unknown action and a key press. -/
def unknownAction : List Step :=
  [{ action := "" }, { action := "fly" },
    { action := "pressKey", params := [("key", .str "HOME")] }]

/-- The unknown action keeps the key from being pressed. Without it, the key is pressed under either
policy. -/
theorem stopping_truncates_unknownAction : ∃ (skipped failed pressed : Entry)
    (t : Turn Rehearsal.State) (log : Log) (u : World Rehearsal.State),
    [skipped, failed, pressed].map (·.status) = [.skipped, .failure, .success] ∧
    (({} : Policy).strict.interpret unknownAction).run (Rehearsal.environment .deserted {}) none
      { outside := {} } =
        (.finished ({ entries := [skipped, failed], aborted := true }, none), t.after) ∧
    (({} : Policy).lenient.interpret (unknownAction.eraseIdx 1)).run
      (Rehearsal.environment .deserted {}) none { outside := {} } = (.finished (log, none), u) ∧
    (({} : Policy).strict.interpret (unknownAction.eraseIdx 1)).run
      (Rehearsal.environment .deserted {}) none { outside := {} } = (.finished (log, none), u) ∧
    log.entries.map (·.status) = [.skipped, .success] := by
  let env := Rehearsal.environment .deserted {}
  let w : World Rehearsal.State := { outside := {} }
  have statuses : (({} : Policy).lenient.tour env 1 unknownAction w).entries.map (·.status) =
      [.skipped, .failure, .success] := by decide +kernel
  have statuses' : (({} : Policy).lenient.tour env 1 (unknownAction.eraseIdx 1) w).entries.map
      (·.status) = [.skipped, .success] := by decide +kernel
  have finished : ((({} : Policy).lenient.interpret (unknownAction.eraseIdx 1)).run env none
      w).1.result?.any (·.2.isNone) = true := by decide +kernel
  obtain ⟨-, -, truncates⟩ := stopping_truncates {} env unknownAction w
  obtain ⟨recorded, transparent, -⟩ := stopping_truncates {} env (unknownAction.eraseIdx 1) w
  obtain ⟨skipped, _, entries, skips, rest⟩ := List.map_eq_cons_iff.1 statuses
  obtain ⟨failed, _, rfl, fails, rest⟩ := List.map_eq_cons_iff.1 rest
  obtain ⟨pressed, _, rfl, presses, rest⟩ := List.map_eq_cons_iff.1 rest
  obtain rfl := List.map_eq_nil_iff.1 rest
  obtain ⟨t, -, -, run, -⟩ := truncates [skipped] failed [pressed] entries fails (by simp [skips])
  obtain ⟨⟨log, _⟩, result, calm⟩ := (Option.any_eq_true _ _).1 finished
  obtain rfl := Option.isNone_iff_eq_none.1 calm
  have run' : (({} : Policy).lenient.interpret (unknownAction.eraseIdx 1)).run env none w =
      (.finished (log, none), _) := Prod.ext (Progress.result?_eq_some_iff.1 result) rfl
  obtain ⟨world, same⟩ := transparent fun e he failure => by
    have held := List.mem_map_of_mem (f := (·.status)) he
    rw [statuses'] at held
    simp [failure] at held
  rw [result] at same
  refine ⟨skipped, failed, pressed, t, log, _, by simp [skips, fails, presses], run, run',
    Prod.ext (Progress.result?_eq_some_iff.1 same) world, ?_⟩
  rw [recorded _ _ _ run', statuses']

end Policy

end UiRunner.Run
