import UiRunner.Proofs.Run.Concourse

/-!
# Runs exclude each other

However runs interleave, the slot admits one at a time. So sessions do not overlap, a run that gets
a session ends it by its last call, and a run that is turned away leaves the world as if it had
never begun.
-/
namespace UiRunner.Run

open Session Routine

variable {ι σ α : Type}

namespace Task

variable {o : Orchestrator} {case : TestCase} {env : Environment σ} {φ : Phase}
  {t : Task σ (Except Panic Report)}

/-- Whether a run was turned away at the gate. -/
def isTurnedAway (t : Task σ α) : Bool :=
  t.trace.any fun x => match x with
    | ⟨.slot .enter, false⟩ => true
    | _ => false

theorem mem_of_isTurnedAway {t : Task σ α} (away : t.isTurnedAway) :
    ⟨.slot .enter, false⟩ ∈ t.trace := by
  obtain ⟨x, mem, refusal⟩ := List.any_eq_true.1 away
  split at refusal
  · exact mem
  · cases refusal

/-- A run waits for its connection, or the server has opened a session for it and has not answered
to the end of it. -/
def InSession (t : Task σ α) : Prop :=
  (∃ p config, t.stand = .waiting p ∧ p.request = .connect config) ∨
    (∃ id, Opens t.trace id) ∧ ∀ a : Except Error Unit, ⟨.quit, a⟩ ∉ t.trace

theorem Keeps.inside_of_inSession {c₀ : Course α} {t : Task σ α} (h : t.Keeps env c₀ φ)
    (session : t.InSession) : φ.inside := by
  obtain ⟨p, config, waits, connect⟩ | ⟨⟨id, opens⟩, open_⟩ := session
  · cases h with
    | ready => cases waits
    | waiting v due _ midway =>
      cases waits
      obtain rfl : _ = _ := connect
      by_contra outside
      have := Phase.request_of_outside midway.obeys (by simpa using outside)
      simp at this
  · exact h.path.inside_of_opens opens open_

theorem Keeps.quit_last (h : t.Keeps env (o.execute case) φ) (quit : .quit ∈ t.calls) :
    ∃ before, t.calls = before ++ [.quit] ∧ .quit ∉ before := by
  cases h with
  | ready _ midway =>
    simp only [calls, List.append_nil] at quit ⊢
    exact Orchestrator.quit_last_of_reaches midway.reaches quit
  | @waiting r next xs v due _ midway =>
    obtain ⟨x⟩ := answerable r
    have asked : callsOf (xs ++ [⟨r, x⟩]) = callsOf xs ++ r.call?.toList := by
      simp [callsOf_cons]
    simp only [calls, ← asked] at quit ⊢
    exact Orchestrator.quit_last_of_reaches (midway.reaches.snoc x) quit

/-- A run that is over has come to an end of its course. -/
theorem Keeps.ends {c₀ : Course α} {t : Task σ α} {a : α} (h : t.Keeps env c₀ φ)
    (ended : t.result? = some a) : Ends c₀ t.trace a ∧ t.calls = callsOf t.trace := by
  cases h with
  | @ready c xs cancelAt midway =>
    cases c with
    | done b =>
      obtain rfl : b = a := by simpa [result?] using ended
      exact ⟨by simpa using midway.reaches.ends (.done b), by simp [calls]⟩
    | ask => simp [result?] at ended
  | waiting => simp [result?] at ended

/-- Until it has a session, a run neither sends a command nor ends a session. -/
theorem Keeps.calls_of_not_acquires (h : t.Keeps env (o.execute case) φ)
    (none : ¬ o.Acquires t.trace) : ∀ c ∈ t.calls, c ≠ .quit ∧ ∀ d, c ≠ .command d := by
  cases ended : t.result? with
  | some result =>
    obtain ⟨ends, calls⟩ := h.ends ended
    rw [calls]
    exact (Orchestrator.outline_of_execute ends).calls_of_not_acquires none
  | none =>
    cases h with
    | @ready c xs _ midway =>
      cases c with
      | done a => simp [result?] at ended
      | ask r next =>
        intro call mem
        refine Orchestrator.calls_of_reaches midway.reaches none call (List.mem_append_left _ ?_)
        simpa [calls] using mem
    | waiting v due _ midway => exact Orchestrator.calls_of_reaches midway.reaches none

end Task

/-- **Runs on one slot exclude each other.** However they interleave, their sessions do not
overlap; each run that gets a session ends it once, by its last call, and each other run only
reports a failed setup; and the world and the other runs are as if those that were turned away had
never begun. -/
theorem runs_exclude [DecidableEq ι] (o : ι → Orchestrator) (case : ι → TestCase)
    (env : ι → Environment σ) (w : World σ) (cancelAt : ι → Option Nat) (es : List (Event ι))
    (c : Concourse ι σ (Except Panic Report))
    (play : (Concourse.start w cancelAt fun i => (o i).execute (case i)).play env es = some c) :
    (∀ i j, (c.task i).InSession → (c.task j).InSession → i = j) ∧
    (∀ i, (.quit ∈ (c.task i).calls →
        ∃ before, (c.task i).calls = before ++ [.quit] ∧ .quit ∉ before) ∧
      (¬ (o i).Acquires (c.task i).trace →
        ∀ call ∈ (c.task i).calls, call ≠ .quit ∧ ∀ d, call ≠ .command d) ∧
      ∀ result, (c.task i).result? = some result →
        ((o i).Acquires (c.task i).trace → .quit ∈ (c.task i).calls) ∧
        (¬ (o i).Acquires (c.task i).trace →
          (∃ p, result = .error p ∧ Breaks (c.task i).trace p) ∨
          ∃ (e : Error) (d : Span), result =
            .ok ⟨(case i).name, false, [⟨0, "Setup", .failure, e.describe, d⟩], false, d⟩)) ∧
    ∀ runs : ι → Bool, (∀ i, runs i → (c.task i).isTurnedAway) →
      (Concourse.start w cancelAt fun i => (o i).execute (case i)).play env
          (es.filter fun e => !e.isOf runs) =
        some (c.without runs (Concourse.start w cancelAt fun i => (o i).execute (case i))) := by
  have begins : ∀ i, RunningOut ((o i).execute (case i)) .outside :=
    fun i => Orchestrator.runningOut_execute
  obtain ⟨phase, kept⟩ := Concourse.kept_of_play play begins
  refine ⟨fun i j hi hj => ?_, fun i => ⟨(kept.keeps i).quit_last,
    (kept.keeps i).calls_of_not_acquires, fun result ended => ?_⟩, fun runs away => ?_⟩
  · exact kept.orderly.sole i j ((kept.keeps i).inside_of_inSession hi)
      ((kept.keeps j).inside_of_inSession hj)
  · obtain ⟨ends, calls⟩ := (kept.keeps i).ends ended
    have outline := Orchestrator.outline_of_execute ends
    refine ⟨fun session => ?_, outline.result_of_not_acquires⟩
    obtain ⟨before, last, -⟩ := outline.calls_of_acquires session
    simp [calls, last]
  · exact Concourse.play_filter play begins fun i mem =>
      (kept.keeps i).path.not_admitted (Task.mem_of_isTurnedAway (away i mem))

/-- Two runs that begin together: one is turned away at the gate, while the other has the slot. -/
def crossing : List (Event Bool) :=
  .replicate 4 (.move true) ++ .replicate 6 (.move false) ++ .replicate 13 (.move true) ++
    [.time 1000] ++ .replicate 9 (.move true)

theorem runs_exclude_crossing :
    ∃ c : Concourse Bool Rehearsal.State (Except Panic Report),
      (Concourse.start { outside := {} } (fun _ => none) fun _ => plainRun.execute keyPress).play
        (fun _ => Rehearsal.environment .deserted {}) crossing = some c ∧
      (c.task false).isTurnedAway ∧ (c.task true).result?.isSome ∧
      (Concourse.start { outside := {} } (fun _ => none) fun _ => plainRun.execute keyPress).play
        (fun _ => Rehearsal.environment .deserted {})
          (crossing.filter fun e => !e.isOf fun i => !i) =
        some (c.without (fun i => !i)
          (Concourse.start { outside := {} } (fun _ => none)
            fun _ => plainRun.execute keyPress)) := by
  have seen : ((Concourse.start { outside := {} } (fun _ => none) fun _ =>
      plainRun.execute keyPress).play (fun _ => Rehearsal.environment .deserted {}) crossing).map
        (fun c => (c.task false).isTurnedAway && (c.task true).result?.isSome) = some true := by
    decide +kernel
  obtain ⟨c, play, seen⟩ := Option.map_eq_some_iff.1 seen
  obtain ⟨away, ended⟩ := Bool.and_eq_true_iff.1 seen
  obtain ⟨-, -, without⟩ := runs_exclude (fun _ => plainRun) (fun _ => keyPress) _ _ _ _ _ play
  exact ⟨c, play, away, ended, without (fun i => !i) (by simpa using away)⟩

end UiRunner.Run
