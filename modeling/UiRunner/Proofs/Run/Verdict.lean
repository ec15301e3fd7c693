import UiRunner.Console.Program
import UiRunner.Proofs.Run.Outline
import UiRunner.Rehearsal.Environment

/-!
# When a run is green

A report has passed exactly if the run got a session and left one success for each step, in order.
So the run command succeeds, and the program exits with zero, in no other case.
-/
namespace UiRunner.Run

open Routine

/-- The entries say of every step, in its place, that it succeeded, and they say nothing else. -/
def Complete (steps : List Step) (entries : List Entry) : Prop :=
  entries.length = steps.length ∧
    ∀ (i : Nat) (s : Step) (e : Entry), steps[i]? = some s → entries[i]? = some e →
      e.index = i + 1 ∧ e.action = s.action ∧ e.status = .success

theorem Complete.success {steps : List Step} {es : List Entry} (h : Complete steps es) :
    ∀ e ∈ es, e.status = .success := by
  intro e he
  obtain ⟨i, hi, rfl⟩ := List.mem_iff_getElem.1 he
  have hs : i < steps.length := by have := h.1; omega
  exact (h.2 i steps[i] es[i] (by simp [hs]) (by simp [hi])).2.2

/-- A walk has left a complete log exactly if it finished and met with successes only. -/
theorem Walk.complete_iff {p : Policy} {steps : List Step} {xs : Trace} {es : List Entry}
    {h : Halt} (walk : Walk p 1 steps xs es h) :
    Complete steps es ↔ h = .finished ∧ ∀ e ∈ es, e.status = .success := by
  constructor
  · intro complete
    exact ⟨walk.finished_of_length_eq complete.1 complete.success, complete.success⟩
  · rintro ⟨finished, success⟩
    refine ⟨walk.length_eq finished, fun i s e hs he => ?_⟩
    obtain ⟨s', hs', index, action⟩ := walk.entry_at he
    obtain rfl : s = s' := Option.some.inj (hs.symm.trans hs')
    exact ⟨by omega, action, success e (List.mem_of_getElem? he)⟩

namespace Orchestrator

variable {o : Orchestrator} {case : TestCase} {start : Nat} {xs : Trace} {log : Log}

/-- The log of a session passes exactly if it is complete. -/
theorem Steps.passed_iff (h : Steps o case start xs log) :
    log.passed = true ↔ Complete case.steps log.entries := by
  cases h with
  | @halted _ es halt walk calm =>
    rw [Halt.close_entries, walk.complete_iff, Log.passed_iff, Halt.close_entries]
    cases halt with
    | finished => simp [Halt.close]
    | cancelled => simp [Halt.close, Log.cancel]
    | stopped => simp [Halt.close, Log.abort]
    | crashed q => simp [Halt.panic?] at calm
  | @crashed _ es q u walk =>
    refine iff_of_false (by simp [Orchestrator.crashed, Log.passed, Log.abort]) fun complete => ?_
    have := complete.success _ (List.mem_append_right _ List.mem_cons_self)
    cases this

/-- A report passes exactly if the run got a session and left a complete log. -/
theorem Outline.passed_iff {result : Except Panic Report} {r : Report}
    (h : Outline o case xs result) (report : result = .ok r) :
    r.passed = true ↔ o.Acquires xs ∧ Complete case.steps r.entries := by
  cases h with
  | broken t acquire => cases report
  | refused t u acquire =>
    cases report
    refine iff_of_false ?_ fun session => not_acquires_of_ends acquire nofun session.1
    simp [Report.ofLog, setupFailure, Log.passed, Log.abort]
  | served t u a acquire steps =>
    cases report
    rw [and_iff_right (acquires_of_ends acquire)]
    exact steps.passed_iff

end Orchestrator

end UiRunner.Run

namespace UiRunner.Console

open Run Routine

variable {σ : Type} {h : Host σ} {s : Settings} {opts : RunOptions} {d : Desk σ}

/-- There is a case with steps and there are capabilities, and the run of this case ends with a
session had and every step succeeded. -/
def RunsGreen (h : Host σ) (s : Settings) (opts : RunOptions) (d : Desk σ) : Prop :=
  ∃ (case : TestCase) (config : Session.Config) (r : Report) (w : World (WebDriver.Client σ)),
    TestCase.load d.files opts.case = .ok case ∧ 1 ≤ case.steps.length ∧
    h.sessionConfig s d.files = .ok config ∧
    ((s.orchestrator config).execute case).run (h.environment s) none d.world =
      (.finished (.ok r), w) ∧
    (s.orchestrator config).Acquires
      (((s.orchestrator config).execute case).trace (h.environment s) none d.world) ∧
    Complete case.steps r.entries

theorem steps_of_load {files : Files.Tree} {path : Path} {case : TestCase}
    (h : TestCase.load files path = .ok case) : 1 ≤ case.steps.length := by
  unfold TestCase.load at h
  split at h
  · cases h
  · split at h
    · cases h
    · rename_i c _
      cases steps : c.steps with
      | nil => simp [TestCase.validate, steps] at h
      | cons step rest =>
        obtain rfl : c = case := by simpa [TestCase.validate, steps] using h
        simp [steps]

theorem perform_eq_ok_iff {α : Type} {c : Course (Except Panic α)} {a : α} :
    (h.perform s c d).1 = .ok a ↔
      ∃ w, c.run (h.environment s) none d.world = (.finished (.ok a), w) := by
  simp only [Host.perform, Course.runWithin, Option.map_none]
  split
  · rename_i b w run
    simp only [run]
    rcases b with p | b
    · simp [Host.resultOf]
    · simp [Host.resultOf]
  · rename_i p w run
    simp [run, Host.resultOf]

theorem runCase_eq_ok_true_iff_perform : (runCase h s opts d).1 = .ok true ↔
    ∃ case config r, TestCase.load d.files opts.case = .ok case ∧
      h.sessionConfig s d.files = .ok config ∧
      (h.perform s ((s.orchestrator config).execute case) d).1 = .ok r ∧ r.passed = true := by
  unfold runCase
  split
  · simp_all
  · split
    · simp_all
    · split <;> simp_all

/-- The run command succeeds exactly for what runs green. -/
theorem runCase_eq_ok_true_iff : (runCase h s opts d).1 = .ok true ↔ RunsGreen h s opts d := by
  rw [runCase_eq_ok_true_iff_perform]
  constructor
  · rintro ⟨case, config, r, load, capabilities, perform, passed⟩
    obtain ⟨w, run⟩ := perform_eq_ok_iff.1 perform
    have outline := Orchestrator.outline_of_execute (Course.ends_of_run run)
    obtain ⟨session, complete⟩ := (outline.passed_iff rfl).1 passed
    exact ⟨case, config, r, w, load, steps_of_load load, capabilities, run, session, complete⟩
  · rintro ⟨case, config, r, w, load, -, capabilities, run, session, complete⟩
    have outline := Orchestrator.outline_of_execute (Course.ends_of_run run)
    exact ⟨case, config, r, load, capabilities, perform_eq_ok_iff.2 ⟨w, run⟩,
      (outline.passed_iff rfl).2 ⟨session, complete⟩⟩

theorem ofVerdict_code_eq_zero_iff {warning : String} {v : Verdict × Desk σ} :
    (Ending.ofVerdict warning v).code = 0 ↔ v.1 = .ok true := by
  rcases v with ⟨e | ⟨⟨⟩⟩, d⟩ <;> simp [Ending.ofVerdict]

/-- What is on the desk once the log file is open, unless it cannot be opened. -/
def LogFile.desk? (d : Desk σ) : LogFile → Option (Desk σ)
  | .none => some d
  | .created files | .refused _ files => some (d.setFiles files)
  | .broken _ _ => Option.none

/-- The program exits with zero exactly if its command succeeds, which needs a log file that can
be opened and settings that can be read. -/
theorem perform_code_eq_zero_iff {i : Invocation} : (i.perform h d).code = 0 ↔
    ∃ d' s, (openLog h i d.files).desk? d = some d' ∧ i.settings h d'.files = .ok s ∧
      (i.command.perform h s d').1 = .ok true := by
  have verdict : ∀ d', (i.verdict h d').1 = .ok true ↔
      ∃ s, i.settings h d'.files = .ok s ∧ (i.command.perform h s d').1 = .ok true := by
    intro d'
    unfold Invocation.verdict
    split <;> simp_all
  unfold Invocation.perform
  split <;> simp [LogFile.desk?, ofVerdict_code_eq_zero_iff, *]

/-- **No failure hides behind a green run.** -/
theorem green_iff :
    (∀ (o : Orchestrator) (case : TestCase) (t : Trace) (r : Report),
      Ends (o.execute case) t (.ok r) →
        (r.passed = true ↔ o.Acquires t ∧ Complete case.steps r.entries)) ∧
    (∀ {σ : Type} (h : Host σ) (s : Settings) (opts : RunOptions) (d : Desk σ),
      (runCase h s opts d).1 = .ok true ↔ RunsGreen h s opts d) ∧
    ∀ {σ : Type} (h : Host σ) (words : List String) (i : Invocation) (opts : RunOptions)
      (d : Desk σ), Invocation.ofWords words = .ok i → i.command = .run opts →
        ((program h words d).code = 0 ↔ ∃ d' s, (openLog h i d.files).desk? d = some d' ∧
          i.settings h d'.files = .ok s ∧ RunsGreen h s opts d') := by
  refine ⟨fun o case t r ends => ?_, fun h s opts d => runCase_eq_ok_true_iff, ?_⟩
  · exact (Orchestrator.outline_of_execute ends).passed_iff rfl
  · intro σ h words i opts d line command
    simp only [program, line, perform_code_eq_zero_iff, command, Command.perform,
      runCase_eq_ok_true_iff]

theorem green_iff_keyPress : ∃ (t : Trace) (r : Report),
    Ends (plainRun.execute keyPress) t (.ok r) ∧ r.passed = true ∧
      plainRun.Acquires t ∧ Complete keyPress.steps r.entries := by
  have green : ((plainRun.execute keyPress).run (Rehearsal.environment .deserted {}) none
      { outside := {} }).1.report?.any (·.passed) = true := by decide +kernel
  obtain ⟨r, report, passed⟩ := (Option.any_eq_true _ _).1 green
  have ends := Course.ends_of_run (Prod.ext (Progress.report?_eq_some_iff.1 report) rfl)
  exact ⟨_, r, ends, passed, (green_iff.1 _ _ _ r ends).1 passed⟩

end UiRunner.Console
