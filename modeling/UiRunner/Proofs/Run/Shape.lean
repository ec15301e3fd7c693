import UiRunner.Proofs.Run.Release
import UiRunner.Rehearsal.Environment

/-!
# The shape of a report

The exchanges of a walk are those of the steps that were executed, one after the other, and of the
way out. So the log of a run holds the entries of its first steps in order; why there is none for
the next step shows in the last result, in a signal, or in a panic.
-/
namespace UiRunner.Run

open Routine Session

/-- After such a result no further step is executed: a fatal error, or any failure if failures are
to stop the run. -/
def Policy.IsLast (p : Policy) (r : StepResult) : Prop :=
  (∃ e, r = .error e ∧ e.isFatal = true) ∨ r.recorded.1 = .failure ∧ p.stopOnFailure = true

theorem Policy.stops_iff {p : Policy} {r : StepResult} : p.stops r = true ↔ p.IsLast r := by
  have fatal : r.isFatal = true ↔ ∃ e, r = .error e ∧ e.isFatal = true := by
    cases r <;> simp [StepResult.isFatal]
  simp [stops, IsLast, fatal]

theorem Policy.not_stops_iff {p : Policy} {r : StepResult} : p.stops r = false ↔ ¬ p.IsLast r := by
  rw [← stops_iff, Bool.not_eq_true]

/-- A step whose action is not found is skipped, or records just that. -/
theorem Policy.execute_unknown {p : Policy} {s : Step} {t : Trace} {r : StepResult} {e : Error}
    (h : Ends (p.execute s) t (.ok r)) (unknown : p.registry.lookup s.action = .error e) :
    r = .ok none ∨ ∃ name, r = .error (.actionNotFound name) := by
  obtain ⟨r', unprepared, -, same⟩ | ⟨d, ps, _, _, _, prepared, -⟩ := ends_execute_cases h
  · obtain rfl := Except.ok.inj same
    obtain rfl := eq_of_lookup_eq_error unknown
    unfold prepare at unprepared
    rw [unknown] at unprepared
    split at unprepared
    · exact .inl (Except.error.inj unprepared).symm
    · exact .inr ⟨s.action, (Except.error.inj unprepared).symm⟩
  · cases unknown.symm.trans (lookup_of_prepared prepared)

/-! ## Steps that were executed -/

/-- A step that was executed: what was asked for it, between which instants, and its result. -/
structure Execution where
  step : Step
  result : StepResult
  trace : Trace
  start : Nat
  finish : Nat

namespace Execution

/-- The entry that an execution leaves. -/
def entry (x : Execution) (k : Nat) : Entry := x.result.entry k x.step x.start x.finish

/-- The exchanges of an execution: nobody had cancelled the run. -/
def exchanges (x : Execution) : Trace :=
  ⟨.cancelled, false⟩ :: ⟨.now, x.start⟩ :: (x.trace ++ [⟨.now, x.finish⟩])

end Execution

/-- The first steps were executed one after the other; the rest of the steps and of the trace is
left. -/
structure Executed (p : Policy) (steps : List Step) (t : Trace) (xs : List Execution)
    (rest : List Step) (tail : Trace) : Prop where
  steps_eq : steps = xs.map (·.step) ++ rest
  trace_eq : t = xs.flatMap Execution.exchanges ++ tail
  ends : ∀ x ∈ xs, Ends (p.execute x.step) x.trace (.ok x.result)

/-- The way out of a walk after some executions. -/
inductive Exit (p : Policy) : Halt → List Execution → List Step → Trace → Prop where
  | finished {xs : List Execution} : (∀ x ∈ xs, ¬ p.IsLast x.result) → Exit p .finished xs [] []
  | cancelled {xs : List Execution} {s : Step} {rest : List Step} :
      (∀ x ∈ xs, ¬ p.IsLast x.result) → Exit p .cancelled xs (s :: rest) [⟨.cancelled, true⟩]
  | stopped {xs : List Execution} {x : Execution} {rest : List Step} :
      (∀ x ∈ xs, ¬ p.IsLast x.result) → p.IsLast x.result → Exit p .stopped (xs ++ [x]) rest []
  | crashed {xs : List Execution} {s : Step} {rest : List Step} {during : Trace} {q : Panic}
      (start : Nat) : (∀ x ∈ xs, ¬ p.IsLast x.result) → Ends (p.execute s) during (.error q) →
      Exit p (.crashed q) xs (s :: rest) (⟨.cancelled, false⟩ :: ⟨.now, start⟩ :: during)

section

variable {p : Policy} {steps rest : List Step} {t tail : Trace} {xs : List Execution}
  {x : Execution} {h : Halt} {k : Nat} {es : List Entry}

theorem Executed.nil (p : Policy) (steps : List Step) (t : Trace) :
    Executed p steps t [] steps t :=
  ⟨rfl, rfl, by simp⟩

theorem Executed.cons (executed : Executed p steps t xs rest tail)
    (ends : Ends (p.execute x.step) x.trace (.ok x.result)) :
    Executed p (x.step :: steps) (x.exchanges ++ t) (x :: xs) rest tail where
  steps_eq := congrArg (x.step :: ·) executed.steps_eq
  trace_eq := by simp [executed.trace_eq]
  ends := List.forall_mem_cons.2 ⟨ends, executed.ends⟩

theorem Exit.cons (exit : Exit p h xs rest tail) (goesOn : ¬ p.IsLast x.result) :
    Exit p h (x :: xs) rest tail := by
  cases exit with
  | finished calm => exact .finished (List.forall_mem_cons.2 ⟨goesOn, calm⟩)
  | cancelled calm => exact .cancelled (List.forall_mem_cons.2 ⟨goesOn, calm⟩)
  | stopped calm last => exact .stopped (List.forall_mem_cons.2 ⟨goesOn, calm⟩) last
  | crashed start calm ends => exact .crashed start (List.forall_mem_cons.2 ⟨goesOn, calm⟩) ends

/-- Every walk executes its first steps and finds a way out. -/
theorem Walk.executed (walk : Walk p k steps t es h) : ∃ xs rest tail,
    Executed p steps t xs rest tail ∧ Exit p h xs rest tail ∧
      es = xs.mapIdx fun i x => x.entry (k + i) := by
  induction walk with
  | finished k => exact ⟨[], [], [], .nil .., .finished (by simp), rfl⟩
  | cancelled k s rest => exact ⟨[], s :: rest, _, .nil .., .cancelled (by simp), rfl⟩
  | @crashed k s rest during q start ends =>
    exact ⟨[], s :: rest, _, .nil .., .crashed start (by simp) ends, rfl⟩
  | @stopped k s rest during r start finish ends stops =>
    have executed := (Executed.nil p rest []).cons (x := ⟨s, r, during, start, finish⟩) ends
    have exit : Exit p .stopped ([] ++ [⟨s, r, during, start, finish⟩]) rest [] :=
      .stopped (by simp) (Policy.stops_iff.1 stops)
    exact ⟨_, rest, [], by simpa [Execution.exchanges] using executed, exit, rfl⟩
  | @step k s rest during after r es h start finish ends stops _ ih =>
    obtain ⟨xs, rest', tail, executed, exit, rfl⟩ := ih
    have executed := executed.cons (x := ⟨s, r, during, start, finish⟩) ends
    refine ⟨⟨s, r, during, start, finish⟩ :: xs, rest', tail, ?_,
      exit.cons (Policy.not_stops_iff.1 stops), ?_⟩
    · simpa [Execution.exchanges] using executed
    · simp [List.mapIdx_cons, Execution.entry, Nat.add_assoc, Nat.add_comm 1]

end

/-! ## The log of a run -/

/-- The log of a walk over all of `n` steps or some of them that the interpreter came to the end
of. -/
structure IsLogOf (p : Policy) (n : Nat) (xs : List Execution) (tail : Trace) (log : Log) :
    Prop where
  entries : log.entries = xs.mapIdx fun i x => x.entry (i + 1)
  goesOn : ∀ x ∈ xs.dropLast, ¬ p.IsLast x.result
  aborted_iff : log.aborted = true ↔ ∃ x, xs.getLast? = some x ∧ p.IsLast x.result
  cancelled_iff : log.cancelled = true ↔
    xs.length < n ∧ log.aborted = false ∧ tail = [⟨.cancelled, true⟩]
  complete : log.aborted = false → log.cancelled = false → xs.length = n
  not_both : ¬ (log.aborted = true ∧ log.cancelled = true)

theorem IsLogOf.of_exit {p : Policy} {steps rest : List Step} {t tail : Trace}
    {xs : List Execution} {h : Halt} (executed : Executed p steps t xs rest tail)
    (exit : Exit p h xs rest tail) (calm : h.panic? = none) :
    IsLogOf p steps.length xs tail
      (h.close { entries := xs.mapIdx fun i x => x.entry (i + 1) }) := by
  have length := congrArg List.length executed.steps_eq
  simp only [List.length_append, List.length_map] at length
  have none (goesOn : ∀ x ∈ xs, ¬ p.IsLast x.result) :
      ¬ ∃ x, xs.getLast? = some x ∧ p.IsLast x.result := by
    rintro ⟨x, last, isLast⟩
    exact goesOn x (List.mem_of_getLast? last) isLast
  cases exit with
  | finished goesOn =>
    refine ⟨rfl, fun x hx => goesOn x (List.dropLast_subset _ hx), ?_, ?_, ?_, ?_⟩
    · exact iff_of_false (by simp [Halt.close]) (none goesOn)
    · simp [Halt.close, length]
    · simp [length]
    · simp [Halt.close]
  | @cancelled xs s rest goesOn =>
    refine ⟨rfl, fun x hx => goesOn x (List.dropLast_subset _ hx), ?_, ?_, ?_, ?_⟩
    · exact iff_of_false (by simp [Halt.close, Log.cancel]) (none goesOn)
    · simp [Halt.close, Log.cancel, length]
    · simp [Halt.close, Log.cancel]
    · simp [Halt.close, Log.cancel]
  | @stopped xs x rest goesOn isLast =>
    refine ⟨rfl, by simpa using goesOn, ?_, ?_, ?_, ?_⟩
    · exact iff_of_true rfl ⟨x, by simp, isLast⟩
    · simp [Halt.close, Log.abort]
    · simp [Halt.close, Log.abort]
    · simp [Halt.close, Log.abort]
  | crashed => cases calm

/-- The log of a run whose interpreter panicked in the step after the executed ones. -/
inductive IsBrokenLogOf (p : Policy) (xs : List Execution) : List Step → Trace → Log → Prop where
  | panicked {s : Step} {rest : List Step} {during : Trace} {q : Panic} (start : Nat) (d : Span) :
      (∀ x ∈ xs, ¬ p.IsLast x.result) → Ends (p.execute s) during (.error q) →
      IsBrokenLogOf p xs (s :: rest) (⟨.cancelled, false⟩ :: ⟨.now, start⟩ :: during)
        { entries := (xs.mapIdx fun i x => x.entry (i + 1)) ++ [⟨0, "Run", .failure,
            (Error.internal s!"step interpreter panicked: {q.message}").describe, d⟩],
          aborted := true }

/-- What the interpreter adds to a log comes after what the log holds. -/
theorem Policy.prefix_of_interpretFrom {p : Policy} {k : Nat} {steps : List Step} {log : Log}
    {t : Trace} {out : Log × Option Panic} (h : Ends (p.interpretFrom k steps log) t out) :
    log.entries <+: out.1.entries := by
  obtain ⟨es, halt, -, rfl⟩ := walk_of_interpretFrom h
  rw [Halt.close_entries]
  exact List.prefix_append _ _

namespace Orchestrator

variable {o : Orchestrator} {case : TestCase}

/-- The log of the steps of a run in a live session. -/
theorem Steps.log_cases {start : Nat} {body : Trace} {log : Log}
    (h : Steps o case start body log) : ∃ walked closing xs rest tail,
      body = walked ++ closing ∧ Executed o.policy case.steps walked xs rest tail ∧
      (¬ Crashes body ∧ IsLogOf o.policy case.steps.length xs tail log ∨
        Crashes body ∧ IsBrokenLogOf o.policy xs rest tail log) := by
  cases h with
  | @halted _ es halt walk calm =>
    obtain ⟨xs, rest, tail, executed, exit, rfl⟩ := walk.executed
    refine ⟨body, [], xs, rest, tail, by simp, executed, .inl ⟨?_, ?_⟩⟩
    · rw [walk.crashes_iff]
      rintro ⟨q, rfl⟩
      cases calm
    · simpa [Nat.add_comm 1] using IsLogOf.of_exit executed exit calm
  | @crashed walked es q u walk =>
    obtain ⟨xs, rest, tail, executed, exit, entries⟩ := walk.executed
    simp only [Nat.add_comm 1] at entries
    refine ⟨walked, _, xs, rest, tail, rfl, executed, .inr ⟨?_, ?_⟩⟩
    · exact crashes_append_iff.2 (.inl (walk.crashes_iff.2 ⟨q, rfl⟩))
    · rw [entries]
      cases exit with
      | @crashed _ s more during _ begun goesOn ends =>
        exact .panicked begun (.ofMillis (u - start)) goesOn ends

/-- **The shape of every report.** A run that got no session leaves the error of its acquire as its
one entry, and no step was attempted. Otherwise the entries are those of the first steps in order,
and the flags of the log tell why there are no more; when the interpreter panicked in the next step,
there is one more entry, for the run. What is skipped keeps no step from being executed, and neither
does an unknown action or a failed check unless failures are to stop the run. The interpreter only
ever adds entries to a log. -/
theorem report_shape :
    (∀ (o : Orchestrator) (case : TestCase) (t : Trace) (b : Report),
      Ends (o.execute case) t (.ok b) → ∃ (log : Log) (d : Span), b = .ofLog case.name log d ∧
        ((¬ o.Acquires t ∧ (∀ x ∈ t, ∀ r cutoff, x.request ≠ .act r cutoff) ∧
            ∃ e start setup finish, t = ⟨.now, start⟩ :: (setup ++ [⟨.now, finish⟩]) ∧
              Ends (o.manager.acquire o.config) setup (.ok (.error e)) ∧
              log = { entries := [⟨0, "Setup", .failure, e.describe, d⟩], aborted := true }) ∨
          o.Acquires t ∧ ∃ id start setup walked closing xs rest tail,
            t = ⟨.now, start⟩ :: (setup ++ (walked ++ closing)) ∧
            Ends (o.manager.acquire o.config) setup (.ok (.ok id)) ∧
            Executed o.policy case.steps walked xs rest tail ∧
            (¬ Crashes t ∧ IsLogOf o.policy case.steps.length xs tail log ∨
              Crashes t ∧ IsBrokenLogOf o.policy xs rest tail log))) ∧
    (∀ (p : Policy) (s : Step) (t : Trace) (r : StepResult), Ends (p.execute s) t (.ok r) →
      (r.recorded.1 = .skipped → ¬ p.IsLast r) ∧ (p.stopOnFailure = false →
        (∀ e, p.registry.lookup s.action = .error e → ¬ p.IsLast r) ∧
        ∀ message, r = .ok (some (.failed message)) → ¬ p.IsLast r)) ∧
    ∀ (p : Policy) (k : Nat) (steps : List Step) (log : Log) (t : Trace)
        (out : Log × Option Panic), Ends (p.interpretFrom k steps log) t out →
      log.entries <+: out.1.entries := by
  refine ⟨fun o case t b ends => ?_, fun p s t r ends => ?_,
    fun p k steps log t out => Policy.prefix_of_interpretFrom⟩
  · cases outline_of_execute ends with
    | @refused setup e start finish acquire =>
      refine ⟨_, _, rfl, .inl ⟨not_acquires_of_ends acquire nofun, ?_,
        e, start, setup, finish, rfl, acquire, rfl⟩⟩
      have calm : ∀ x ∈ setup, ∀ r cutoff, x.request ≠ .act r cutoff := by
        intro x hx r cutoff act
        obtain isOfSetup | ⟨op, slot⟩ := (Manager.setup_of_acquire acquire).request_cases x hx
        · rw [act] at isOfSetup
          cases isOfSetup
        · cases act.symm.trans slot
      simpa [or_imp, forall_and] using calm
    | @served setup body id log start finish a acquire steps =>
      obtain ⟨walked, closing, xs, rest, tail, rfl, executed, shape⟩ := steps.log_cases
      refine ⟨log, _, rfl, .inr ⟨acquires_of_ends acquire, id, start, setup, walked,
        closing ++ [⟨.quit, a⟩, ⟨.slot .vacate, ()⟩, ⟨.now, finish⟩], xs, rest, tail,
        by rw [List.append_assoc walked], acquire, executed, ?_⟩⟩
      rwa [crashes_served_iff acquire]
  · refine ⟨fun skipped => ?_, fun lenient => ⟨fun e unknown => ?_, ?_⟩⟩
    · rintro (⟨e, rfl, -⟩ | ⟨failure, -⟩)
      · cases skipped
      · cases skipped.symm.trans failure
    · obtain rfl | ⟨name, rfl⟩ := Policy.execute_unknown ends unknown
      · simp [Policy.IsLast, lenient]
      · simp [Policy.IsLast, lenient, Error.isFatal]
    · rintro message rfl
      simp [Policy.IsLast, lenient]

/-- An unknown action is recorded, and the key is pressed nevertheless. -/
theorem report_shape_unknown : ∃ (t : Trace) (b : Report) (log : Log) (d : Span)
    (xs : List Execution) (tail : Trace) (r : StepResult) (out : Log × Option Panic),
    Ends (plainRun.execute { keyPress with steps := { action := "fly" } :: keyPress.steps }) t
      (.ok b) ∧
    b.entries.map (fun e => (e.index, e.action)) = [(1, "fly"), (2, "pressKey")] ∧
    b = .ofLog "Home" log d ∧ IsLogOf plainRun.policy 2 xs tail log ∧
    Ends (plainRun.policy.execute { action := "fly" }) [] (.ok r) ∧ ¬ plainRun.policy.IsLast r ∧
    Ends (plainRun.policy.interpretFrom 3 [] log) [] out ∧ log.entries <+: out.1.entries := by
  let case : TestCase := { keyPress with steps := { action := "fly" } :: keyPress.steps }
  have entered : ((plainRun.execute case).run (Rehearsal.environment .deserted {}) none
      { outside := {} }).1.report?.any (fun b => b.entries.map (fun e => (e.index, e.action)) =
        [(1, "fly"), (2, "pressKey")]) = true := by decide +kernel
  obtain ⟨b, report, entries⟩ := (Option.any_eq_true _ _).1 entered
  have entries := of_decide_eq_true entries
  have ends := Course.ends_of_run (Prod.ext (Progress.report?_eq_some_iff.1 report) rfl)
  obtain ⟨shape, calm, keeps⟩ := report_shape
  obtain ⟨log, d, rfl, ways⟩ := shape plainRun case _ b ends
  have unknown : Ends (plainRun.policy.execute { action := "fly" }) []
      (.ok (.error (.actionNotFound "fly"))) := .done _
  have last : Ends (plainRun.policy.interpretFrom 3 [] log) [] (log, none) := .done _
  have lenient := ((calm _ _ _ _ unknown).2 rfl).1 _ rfl
  obtain ⟨-, -, e, _, _, _, -, -, rfl⟩ | ⟨-, _, _, _, _, _, xs, rest, tail, -, -, -,
    ⟨-, complete⟩ | ⟨-, broken⟩⟩ := ways
  · cases entries
  · exact ⟨_, _, log, d, xs, tail, _, _, ends, entries, rfl, complete, unknown, lenient, last,
      keeps _ _ _ _ _ _ last⟩
  · cases broken with
    | panicked start d' =>
      have actions := congrArg (fun l => l.getLast?.map Prod.snd) entries
      simp [Report.ofLog] at actions

end Orchestrator

end UiRunner.Run
