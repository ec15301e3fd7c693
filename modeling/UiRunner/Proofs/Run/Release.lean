import UiRunner.Proofs.Run.Journal
import UiRunner.Proofs.Run.Outline
import UiRunner.Rehearsal.Environment

/-!
# Releasing the session

A run that got a session ends it once, with its last call, and a run leaves a free slot free. The
slot ends up failed only if there was no session or the interpreter panicked. What the server
answers to the end of a session shows in no report.
-/
namespace UiRunner.Run

open Session Routine

variable {σ α β : Type}

/-! ## The slot after a run -/

/-- Acquiring a session is no request of an action. -/
theorem Setup.not_crashes {xs : Trace} {r : Attempt SessionId} (h : Setup xs r) :
    ¬ Crashes xs := by
  rintro ⟨r, cutoff, q, hx⟩
  obtain setup | ⟨op, slot⟩ := h.request_cases _ hx
  · cases setup
  · cases slot

namespace Orchestrator

variable {o : Orchestrator} {case : TestCase} {s u : Slot}

/-- The interpreter marks the session as failed when it panics, and otherwise leaves the slot
alone. -/
theorem Steps.slot_eq {start : Nat} {xs : Trace} {log : Log} (h : Steps o case start xs log)
    (path : SlotPath s xs u) : Crashes xs ∧ u = s.markFailed ∨ ¬ Crashes xs ∧ u = s := by
  have alone : ∀ {ys : Trace}, (∀ x ∈ ys, x.request.isOfSteps) →
      ∀ x ∈ ys, ∀ op, x.request ≠ .slot op := by
    intro ys steps x hx op slot
    have := steps x hx
    simp [slot, Request.isOfSteps] at this
  cases h with
  | @halted _ _ halt walk calm =>
    refine .inr ⟨?_, path.eq_of_forall (alone walk.isOfSteps)⟩
    rw [walk.crashes_iff]
    rintro ⟨q, rfl⟩
    simp [Halt.panic?] at calm
  | @crashed _ _ q t walk =>
    obtain ⟨_, steps, last⟩ := slotPath_append_iff.1 path
    obtain rfl := steps.eq_of_forall (alone walk.isOfSteps)
    obtain ⟨_, mark, look⟩ := slotPath_cons_iff.1 last
    obtain rfl := look.eq_of_forall (by simp)
    exact .inl ⟨crashes_append_iff.2 (.inl (walk.crashes_iff.2 ⟨q, rfl⟩)), mark.op_inv.2⟩

/-- Only in a step can the interpreter panic. -/
theorem crashes_served_iff {setup body : Trace} {r : Attempt SessionId} {t t' : Nat}
    {a : Except Error Unit} (acquire : Ends (o.manager.acquire o.config) setup r) :
    Crashes (⟨.now, t⟩ :: (setup ++ (body ++ [⟨.quit, a⟩, ⟨.slot .vacate, ()⟩, ⟨.now, t'⟩]))) ↔
      Crashes body := by
  simp [crashes_cons_iff_of_ne, crashes_append_iff, not_crashes_nil,
    (Manager.setup_of_acquire acquire).not_crashes]

/-- Where a run leaves a slot that it found free. -/
theorem Outline.slot_eq {xs : Trace} {result : Except Panic Report}
    (h : Outline o case xs result) (free : s.isFree) (path : SlotPath s xs u) :
    (o.Acquires xs ∧ ¬ Crashes xs ∧ u = ⟨.released, false⟩) ∨
      ((¬ o.Acquires xs ∨ Crashes xs) ∧ u = ⟨.failed, false⟩) := by
  cases h with
  | broken t acquire =>
    obtain ⟨_, look, during⟩ := slotPath_cons_iff.1 path
    obtain rfl := look.other_inv (by simp)
    exact .inr ⟨.inl (not_acquires_of_panic acquire),
      (Manager.setup_of_acquire acquire).slot_eq free during⟩
  | refused t t' acquire =>
    obtain ⟨_, look, afterLook⟩ := slotPath_cons_iff.1 path
    obtain rfl := look.other_inv (by simp)
    obtain ⟨_, during, last⟩ := slotPath_append_iff.1 afterLook
    obtain rfl := last.eq_of_forall (by simp)
    exact .inr ⟨.inl (not_acquires_of_ends acquire nofun),
      (Manager.setup_of_acquire acquire).slot_eq free during⟩
  | @served setup body id _ t t' a acquire steps =>
    obtain ⟨_, look, afterLook⟩ := slotPath_cons_iff.1 path
    obtain rfl := look.other_inv (by simp)
    obtain ⟨_, before, afterSetup⟩ := slotPath_append_iff.1 afterLook
    obtain rfl := (Manager.setup_of_acquire acquire).slot_eq free before
    obtain ⟨_, during, afterSteps⟩ := slotPath_append_iff.1 afterSetup
    obtain ⟨_, quit, afterQuit⟩ := slotPath_cons_iff.1 afterSteps
    obtain rfl := quit.other_inv (by simp)
    obtain ⟨_, vacate, last⟩ := slotPath_cons_iff.1 afterQuit
    obtain rfl := last.eq_of_forall (by simp)
    obtain rfl := vacate.op_inv.2
    rw [crashes_served_iff acquire]
    obtain ⟨crashed, rfl⟩ | ⟨calm, rfl⟩ := steps.slot_eq during
    · exact .inr ⟨.inr crashed, rfl⟩
    · exact .inl ⟨acquires_of_ends acquire, calm, rfl⟩

end Orchestrator

/-! ## Whatever the server answers to the end of a session -/

/-- Until it ends its session, a run does not depend on how the server answers that. -/
theorem Course.run_with_quit {c : Course α} (asks : Asks (fun r : Request => r ≠ .quit) c)
    (env : Environment σ) (quit : Nat → σ → Reaction σ (Except Error Unit)) (limit : Option Nat)
    (w : World σ) :
    c.run { env with quit } limit w = c.run env limit w := by
  induction c generalizing w with
  | done a => rfl
  | ask r next ih =>
    have same : w.begin { env with quit } r = w.begin env r := by
      cases r with
      | quit => exact absurd rfl asks.1
      | act q cutoff => cases q <;> rfl
      | check | connect | settle | now | cancelled | slot => rfl
    simp only [Course.run, same]
    split
    · exact ih _ (asks.2 _) _
    · rfl

namespace Orchestrator

variable {o : Orchestrator} {case : TestCase}

/-- A run up to the end of its session: when it began, and the log of its steps. -/
def session (o : Orchestrator) (case : TestCase) : Course (Nat × Attempt Log) := do
  let start ← Course.now
  match ← o.manager.acquire o.config with
  | .error p => pure (start, .error p)
  | .ok (.error e) => pure (start, .ok (.error e))
  | .ok (.ok _) => do
    let log ← o.steps case start
    pure (start, .ok (.ok log))

/-- The rest of a run. -/
def close (case : TestCase) : Nat × Attempt Log → Course (Except Panic Report)
  | (_, .error p) => pure (.error p)
  | (start, .ok (.error e)) => do
    let d ← since start
    pure (.ok (.ofLog case.name (setupFailure e d) d))
  | (start, .ok (.ok log)) => do
    Manager.release
    pure (.ok (.ofLog case.name log (← since start)))

theorem execute_eq_session_bind (o : Orchestrator) (case : TestCase) :
    o.execute case = o.session case >>= close case := by
  simp only [execute, session, bind_assoc]
  congr 1
  funext start
  congr 1
  funext acquired
  rcases acquired with p | e | id
  · rfl
  · rfl
  · simp only [bind_assoc]
    rfl

theorem session_asks (o : Orchestrator) (case : TestCase) :
    Asks (fun r : Request => r ≠ .quit) (o.session case) := by
  refine asks_ask_bind_iff.2 ⟨by simp, fun start => ?_⟩
  have acquire : Asks (fun r : Request => r ≠ .quit) (o.manager.acquire o.config) :=
    Manager.acquire_asks (by rintro r setup rfl; cases setup) (by simp) ..
  refine acquire.bind fun acquired => ?_
  rcases acquired with p | e | id
  · trivial
  · trivial
  · refine (asks_of_ends answerable fun xs log steps x hx => ?_).bind fun log => trivial
    obtain isOfSteps | marked := (steps_of_ends steps).request_cases x hx
    · rintro quit
      simp [quit, Request.isOfSteps] at isOfSteps
    · simp [marked]

/-- Once the server answers, the report is out and the slot is vacated. There is no other call. -/
theorem run_close {env : Environment σ} {w : World σ} {t : Nat} (case : TestCase) (start : Nat)
    (log : Log) (due : (w.begin env .quit).due = some t) :
    ∃ d w', (close case (start, .ok (.ok log))).run env none w =
      (.finished (.ok (.ofLog case.name log d)), w') ∧ w'.slot = w.slot.vacate ∧
      w'.journal = (w.now, .quit) :: w.journal := by
  have quit := (World.slotStep env w ((w.begin env .quit).world.reach t) .quit).other_inv (by simp)
  have calls := (World.finish_leads env w ((w.begin env .quit).world.reach t) .quit).journal
  exact ⟨_, _, (Course.run_ask_of_due due).trans rfl, congrArg Slot.vacate quit, calls⟩

/-- The report of a run whose session was ended otherwise differs in its duration at most. -/
theorem run_with_quit {env : Environment σ} {w w' : World σ} {r : Report}
    {quit' : Nat → σ → Reaction σ (Except Error Unit)}
    (answered : ∀ now s, (quit' now s).takes.isSome)
    (run : (o.execute case).run env none w = (.finished (.ok r), w')) :
    ∃ r' w'', (o.execute case).run { env with quit := quit' } none w = (.finished (.ok r'), w'') ∧
      r' = { r with duration := r'.duration } ∧ w''.slot = w'.slot := by
  rw [execute_eq_session_bind, Course.run_bind] at run ⊢
  rw [Course.run_with_quit (o.session_asks case)]
  split at run
  · rename_i a w₁ session
    obtain ⟨start, p | e | log⟩ := a
    · simp [close, Course.run] at run
    · have calm : Asks (fun r : Request => r ≠ .quit) (close case (start, .ok (.error e))) :=
        ⟨by simp, fun _ => trivial⟩
      rw [Course.run_with_quit calm]
      exact ⟨r, w', run, rfl, rfl⟩
    · obtain ⟨t, due⟩ : ∃ t, (w₁.begin env .quit).due = some t := Course.due_of_run run
      obtain ⟨t', due'⟩ : ∃ t', (w₁.begin { env with quit := quit' } .quit).due = some t' := by
        simp [World.begin, World.call, Option.isSome_iff_exists.1 (answered _ _)]
      obtain ⟨d, v, first, slot, -⟩ := run_close case start log due
      obtain ⟨d', v', second, slot', -⟩ := run_close case start log due'
      obtain ⟨⟨⟩, rfl⟩ := Prod.mk.inj (run.symm.trans first)
      exact ⟨_, v', second, rfl, slot'.trans slot.symm⟩
  · cases run

/-- At no moment of a run has another call followed the end of its session. -/
theorem quit_last_of_reaches {t : Trace} {rest : Course (Except Panic Report)}
    (h : Reaches (o.execute case) t rest) (quit : .quit ∈ callsOf t) :
    ∃ before, callsOf t = before ++ [.quit] ∧ .quit ∉ before := by
  obtain ⟨more, result, ends⟩ := exists_ends answerable rest
  have outline := outline_of_execute (h.ends ends)
  by_cases session : o.Acquires (t ++ more)
  · obtain ⟨before, calls, once⟩ := outline.calls_of_acquires session
    rw [callsOf_append, List.append_eq_append_iff] at calls
    obtain ⟨as, rfl, -⟩ | ⟨bs, soFar, last⟩ := calls
    · exact absurd (List.mem_append_left _ quit) once
    · refine ⟨before, ?_, once⟩
      cases bs with
      | nil => exact absurd (by simpa [soFar] using quit) once
      | cons b bs =>
        obtain ⟨rfl, rest⟩ := List.cons.inj last
        rw [soFar, (List.append_eq_nil_iff.1 rest.symm).1]
  · have := outline.calls_of_not_acquires session .quit (by simp [quit])
    exact absurd rfl this.1

/-- Until it has a session, a run neither sends a command nor ends a session. -/
theorem calls_of_reaches {t : Trace} {r : Request}
    {next : r.Answer → Course (Except Panic Report)}
    (h : Reaches (o.execute case) t (.ask r next)) (none : ¬ o.Acquires t) :
    ∀ c ∈ callsOf t ++ r.call?.toList, c ≠ .quit ∧ ∀ d, c ≠ .command d := by
  obtain ⟨x⟩ := answerable r
  obtain ⟨more, result, ends⟩ := exists_ends answerable (next x)
  have total := h.ends (.ask ends)
  have calls : callsOf (t ++ ⟨r, x⟩ :: more) = callsOf t ++ r.call?.toList ++ callsOf more := by
    simp [callsOf_cons]
  intro c hc
  by_cases session : o.Acquires (t ++ ⟨r, x⟩ :: more)
  · obtain ⟨start, setup, rest, id, same, acquire⟩ := session
    rw [← List.cons_append, List.append_eq_append_iff] at same
    obtain ⟨between, setup_eq, tail⟩ | ⟨after, rfl, -⟩ := same
    · cases between with
      | nil =>
        refine absurd ⟨start, setup, [], id, ?_, acquire⟩ none
        simpa using setup_eq.symm
      | cons y ys =>
        obtain ⟨rfl, -⟩ := List.cons.inj tail
        refine (Manager.setup_of_acquire acquire).calls c ?_
        have within : callsOf setup = callsOf t ++ r.call?.toList ++ callsOf ys := by
          have := congrArg callsOf setup_eq
          simpa [callsOf_cons, Request.call?] using this
        rw [within]
        exact List.mem_append_left _ hc
    · exact absurd ⟨start, setup, after, id, rfl, acquire⟩ none
  · refine (outline_of_execute total).calls_of_not_acquires session c ?_
    rw [calls]
    exact List.mem_append_left _ hc

/-- **A session is ended once, by the last call of its run, and the slot is left free.** -/
theorem session_ended_once :
    (∀ (o : Orchestrator) (case : TestCase) (t : Trace) (result : Except Panic Report)
        (s u : Slot),
      Ends (o.execute case) t result → s.isFree → SlotPath s t u →
        (o.Acquires t → ∃ before, callsOf t = before ++ [.quit] ∧ .quit ∉ before) ∧
        (¬ o.Acquires t → ∀ c ∈ callsOf t, c ≠ .quit ∧ ∀ d, c ≠ .command d) ∧
        u.live = false ∧ (u.state = .failed ↔ ¬ o.Acquires t ∨ Crashes t) ∧
        (u.state = .released ↔ o.Acquires t ∧ ¬ Crashes t)) ∧
    (∀ (o : Orchestrator) (case : TestCase) (t : Trace) (rest : Course (Except Panic Report)),
      Reaches (o.execute case) t rest → .quit ∈ callsOf t →
        ∃ before, callsOf t = before ++ [.quit] ∧ .quit ∉ before) ∧
    ∀ {σ : Type} (o : Orchestrator) (case : TestCase) (env : Environment σ)
        (quit' : Nat → σ → Reaction σ (Except Error Unit)) (w w' : World σ) (r : Report),
      (∀ now s, (quit' now s).takes.isSome) →
      (o.execute case).run env none w = (.finished (.ok r), w') →
        ∃ r' w'', (o.execute case).run { env with quit := quit' } none w =
            (.finished (.ok r'), w'') ∧
          r' = { r with duration := r'.duration } ∧ w''.slot = w'.slot := by
  refine ⟨fun o case t result s u ends free path => ?_,
    fun o case t rest => quit_last_of_reaches,
    fun o case env quit' w w' r => run_with_quit⟩
  have outline := outline_of_execute ends
  refine ⟨outline.calls_of_acquires, outline.calls_of_not_acquires, ?_⟩
  obtain ⟨session, calm, rfl⟩ | ⟨failure, rfl⟩ := outline.slot_eq free path
  · simp [session, calm]
  · simpa [imp_iff_not_or] using failure

/-- The key press of a rehearsal, once more with a server that does not find the session. -/
theorem session_ended_once_keyPress : ∃ (t : Trace) (r r' : Report) (u : Slot)
    (w' : World Rehearsal.State),
    Ends (plainRun.execute keyPress) t (.ok r) ∧ plainRun.Acquires t ∧ SlotPath {} t u ∧
    (∃ before, callsOf t = before ++ [.quit] ∧ .quit ∉ before) ∧ u.live = false ∧
    (plainRun.execute keyPress).run { Rehearsal.environment .deserted {} with
        quit := fun _ s => { begun := s, finish := fun s => (.error (.driver "no session"), s) } }
      none { outside := {} } = (.finished (.ok r'), w') ∧
    r' = { r with duration := r'.duration } := by
  have ended : ((plainRun.execute keyPress).run (Rehearsal.environment .deserted {}) none
      { outside := {} }).1.report?.isSome ∧ ((plainRun.execute keyPress).run
      (Rehearsal.environment .deserted {}) none { outside := {} }).2.slot.state = .released := by
    decide +kernel
  obtain ⟨r, report⟩ := Option.isSome_iff_exists.1 ended.1
  have run : (plainRun.execute keyPress).run (Rehearsal.environment .deserted {}) none
      { outside := {} } = (.finished (.ok r), _) :=
    Prod.ext (Progress.report?_eq_some_iff.1 report) rfl
  have ends := Course.ends_of_run run
  have path := Course.slotPath_trace (Rehearsal.environment .deserted {}) none
    (plainRun.execute keyPress) { outside := {} }
  obtain ⟨released, -, again⟩ := session_ended_once
  obtain ⟨once, -, free, -, acquired⟩ := released _ _ _ _ _ _ ends rfl path
  have session := (acquired.1 ended.2).1
  obtain ⟨r', w', run', same, -⟩ := again plainRun keyPress _
    (fun _ s => { begun := s, finish := fun s => (.error (.driver "no session"), s) }) _ _ _
    (fun _ _ => rfl) run
  exact ⟨_, r, r', _, w', ends, session, path, once session, free, run', same⟩

end Orchestrator

end UiRunner.Run
