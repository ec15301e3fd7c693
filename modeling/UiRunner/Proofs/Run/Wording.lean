import UiRunner.Proofs.Action.Registry
import UiRunner.Proofs.Action.Search
import UiRunner.Proofs.Run.Shape

/-!
# What the message of a failed step tells

A step can fail for four causes. Three of them are errors, which put their codes before the message,
and no code has a colon in it. The fourth is a failed outcome, which no action words so that it
begins like one of these codes, whatever the names and texts in it are. So the first word of a
message tells the cause, and with it whether the run went on.
-/
namespace UiRunner

/-- The message begins with this code and a colon. -/
def BeginsWith (code message : String) : Prop := code.toList ++ [':'] <+: message.toList

instance (code message : String) : Decidable (BeginsWith code message) :=
  inferInstanceAs (Decidable (_ <+: _))

theorem colon_notMem_code (e : Error) : ':' ∉ e.code.toList := by
  cases e <;> simp [Error.code]

theorem eq_of_append_colon {code code' rest rest' : List Char} (plain : ':' ∉ code)
    (plain' : ':' ∉ code') (same : code ++ ':' :: rest = code' ++ ':' :: rest') : code = code' := by
  have before {cs : List Char} (rest : List Char) (plain : ':' ∉ cs) :
      (cs ++ ':' :: rest).takeWhile (· != ':') = cs := by
    rw [List.takeWhile_append_of_pos fun c mem => bne_iff_ne.2 (ne_of_mem_of_not_mem mem plain),
      List.takeWhile_cons_of_neg (by simp), List.append_nil]
  rw [← before rest plain, same, before rest' plain']

/-- A described error begins with its own code only. -/
theorem beginsWith_describe_iff {code : String} (plain : ':' ∉ code.toList) (e : Error) :
    BeginsWith code e.describe ↔ e.code = code := by
  have described : e.describe.toList = e.code.toList ++ ':' :: ' ' :: e.message.toList := by
    simp [Error.describe]
  unfold BeginsWith
  rw [described]
  constructor
  · rintro ⟨rest, same⟩
    rw [List.append_assoc, List.singleton_append] at same
    exact (String.toList_injective (eq_of_append_colon plain (colon_notMem_code e) same)).symm
  · rintro rfl
    exact ⟨' ' :: e.message.toList, by simp⟩

theorem Error.isFatal_iff (e : Error) : e.isFatal = true ↔ e.code ≠ "ActionNotFound" := by
  cases e <;> simp [Error.isFatal, Error.code]

namespace Action

/-! ## What actions say of a failure -/

variable {α β : Type} {P : α → Prop}

/-- Whatever value the script comes to is of this kind. -/
def Returns (P : α → Prop) (p : Script α) : Prop := ∀ xs a, Routine.Ends p.run xs (.ok a) → P a

namespace Returns

theorem pure {a : α} (h : P a) : Returns P (pure a) := by
  intro xs b ends
  cases (Routine.ends_done_iff.1 ends).2
  exact h

/-- The last part of a sequence decides. -/
theorem bind {p : Script β} {f : β → Script α} (h : ∀ b, Returns P (f b)) :
    Returns P (p >>= f) := by
  intro xs a ends
  obtain ⟨ys, zs, b, -, -, last⟩ := ends_bind_ok ends
  exact h b zs a last

theorem ite {c : Prop} [Decidable c] {p q : Script α} (h : Returns P p) (g : Returns P q) :
    Returns P (if c then p else q) := by
  split
  · exact h
  · exact g

theorem selecting {P : Outcome → Prop} {ps : Params} {f : Selector → Query → Script Outcome}
    (h : ∀ selector query, Returns P (f selector query)) : Returns P (selecting ps f) := by
  intro xs o ends
  obtain ⟨selector, query, -, rest⟩ := ends_selecting ends
  exact h selector query xs o rest

end Returns

/-- The message of a failed outcome begins with another letter than the codes of errors in steps. -/
def Outcome.isPlain : Outcome → Bool
  | .passed _ => true
  | .failed message => message.toList.head?.any fun c => c != 'A' && c != 'P'

abbrev Plain (o : Outcome) : Prop := o.isPlain = true

theorem Outcome.not_beginsWith {message code : String} (plain : Plain (.failed message))
    (letter : code.toList.head? = some 'A' ∨ code.toList.head? = some 'P') :
    ¬ BeginsWith code message := by
  rintro ⟨rest, same⟩
  have first : message.toList.head? = code.toList.head? := by
    rw [← same]
    obtain letter | letter := letter <;> simp [List.head?_append, letter]
  obtain letter | letter := letter <;> simp [Plain, isPlain, first, letter] at plain

theorem Returns.failed {message : String} (h : Plain (.failed message)) :
    Returns Plain (Pure.pure (Outcome.failed message) : Script Outcome) := .pure h

/-- What an action says of a failure begins with words of its own, whatever it goes on with. -/
theorem Behavior.returns_plain (b : Behavior) (s : Settings) (ps : Params) :
    Returns Plain (b.script s ps) := by
  cases b with
  | launchApp =>
    refine .bind fun _ => .bind fun _ => .bind fun current => .ite (.pure rfl) (.failed ?_)
    simp only [Plain, Outcome.isPlain, String.toList_append, List.append_assoc]
    rfl
  | click | typeText =>
    refine .selecting fun selector query => .bind fun found => ?_
    cases found with
    | some e => exact .bind fun _ => .bind fun _ => .pure rfl
    | none =>
      refine .failed ?_
      simp only [Plain, Outcome.isPlain, String.toList_append, List.append_assoc]
      rfl
  | waitForElement =>
    refine .selecting fun selector query => .bind fun found => ?_
    cases found with
    | some e => exact .pure rfl
    | none =>
      refine .failed ?_
      simp only [Plain, Outcome.isPlain, String.toList_append, List.append_assoc]
      rfl
  | assertText =>
    refine .selecting fun selector query => .bind fun found => ?_
    cases found with
    | some e =>
      refine .bind fun actual => .ite (.pure rfl) (.failed ?_)
      simp only [Plain, Outcome.isPlain, String.toList_append, List.append_assoc]
      rfl
    | none =>
      refine .failed ?_
      simp only [Plain, Outcome.isPlain, String.toList_append, List.append_assoc]
      rfl
  | pressKey =>
    rw [script, Action.pressKey]
    cases Key.code? (ps.str "key") with
    | some code => exact .bind fun _ => .bind fun _ => .pure rfl
    | none =>
      refine .failed ?_
      simp only [Plain, Outcome.isPlain, String.toList_append, List.append_assoc]
      rfl
  | screenshot =>
    -- Unfolded by hand: unification would evaluate the file name in the condition.
    rw [script, Action.screenshot]
    refine .ite (.failed ?_) (.bind fun made => ?_)
    · simp only [Plain, Outcome.isPlain, String.toList_append, List.append_assoc]
      rfl
    · cases made with
      | error e =>
        refine .failed ?_
        simp only [Plain, Outcome.isPlain, String.toList_append, List.append_assoc]
        rfl
      | ok u =>
        refine .bind fun png => .bind fun written => ?_
        cases written with
        | ok u => exact .pure rfl
        | error e =>
          refine .failed ?_
          simp only [Plain, Outcome.isPlain, String.toList_append, List.append_assoc]
          rfl
  | wait =>
    refine .ite (.failed ?_) (.bind fun _ => .pure rfl)
    simp only [Plain, Outcome.isPlain, String.toList_append]
    rfl

end Action

namespace Run

open Routine UiRunner.Action

/-! ## Causes of failure -/

/-- The action of the step was started with typed parameters, and this became of it. -/
def Handled (p : Policy) (s : Step) (t : Trace) (fate : Fate (Except Error Outcome)) : Prop :=
  ∃ d ps start ys, p.registry.lookup? s.action = some d ∧ coerce d.params s.params = .ok ps ∧
    t = ⟨.now, start⟩ :: ys ∧
    Ends (within (p.limit.map (Clock.wake start)) (d.behavior.script p.settings ps).run) ys fate

/-- The action returned an error, panicked or was cut off. -/
def Fate.isBreakdown : Fate (Except Error Outcome) → Bool
  | .answered (.error _) | .panicked _ | .cut => true
  | .answered (.ok _) | .crashed _ => false

/-- Why a step can fail. -/
inductive Cause where
  | unknown
  | mismatch
  | breakdown
  | verdict

namespace Cause

def Holds (p : Policy) (s : Step) (t : Trace) : Cause → Prop
  | .unknown => p.registry.lookup? s.action = none
  | .mismatch => ∃ d m, p.registry.lookup? s.action = some d ∧ coerce d.params s.params = .error m
  | .breakdown => ∃ fate, Handled p s t fate ∧ fate.isBreakdown = true
  | .verdict => ∃ message, Handled p s t (.answered (.ok (.failed message)))

/-- The code that stands before the message. -/
def code? : Cause → Option String
  | .unknown => some "ActionNotFound"
  | .mismatch => some "ParameterMismatch"
  | .breakdown => some "ActionRuntimeFailure"
  | .verdict => none

end Cause

variable {p : Policy} {s : Step} {t : Trace} {r : StepResult} {c c' : Cause}
  {fate fate' : Fate (Except Error Outcome)}

theorem Handled.unique (h : Handled p s t fate) (g : Handled p s t fate') : fate = fate' := by
  obtain ⟨d, ps, start, ys, found, typed, rfl, ends⟩ := h
  obtain ⟨d', ps', start', ys', found', typed', same, ends'⟩ := g
  obtain rfl := Option.some.inj (found.symm.trans found')
  obtain rfl := Except.ok.inj (typed.symm.trans typed')
  cases same
  exact (ends.unique ends' (rfl : ys ++ [] = ys ++ [])).2

namespace Cause

theorem eq_unknown (unknown : p.registry.lookup? s.action = none) (h : c.Holds p s t) :
    c = .unknown := by
  cases c with
  | unknown => rfl
  | mismatch =>
    obtain ⟨d, m, found, -⟩ := h
    cases unknown.symm.trans found
  | breakdown =>
    obtain ⟨_, ⟨d, ps, start, ys, found, -⟩, -⟩ := h
    cases unknown.symm.trans found
  | verdict =>
    obtain ⟨_, d, ps, start, ys, found, -⟩ := h
    cases unknown.symm.trans found

theorem eq_mismatch {d : Definition} {m : Mismatch} (found : p.registry.lookup? s.action = some d)
    (refused : coerce d.params s.params = .error m) (h : c.Holds p s t) : c = .mismatch := by
  have notHandled (fate : Fate (Except Error Outcome)) : ¬ Handled p s t fate := by
    rintro ⟨d', ps, start, ys, found', typed, -⟩
    obtain rfl := Option.some.inj (found.symm.trans found')
    cases refused.symm.trans typed
  cases c with
  | unknown => cases Eq.trans (Eq.symm h) found
  | mismatch => rfl
  | breakdown => exact absurd h.choose_spec.1 (notHandled _)
  | verdict => exact absurd h.choose_spec (notHandled _)

theorem eq_of_handled (handled : Handled p s t fate) (h : c.Holds p s t) :
    c = if fate.isBreakdown then .breakdown else .verdict := by
  cases c with
  | unknown =>
    obtain ⟨d, ps, start, ys, found, -⟩ := handled
    cases Eq.trans (Eq.symm h) found
  | mismatch =>
    obtain ⟨d, m, found, refused⟩ := h
    obtain ⟨d', ps, start, ys, found', typed, -⟩ := handled
    obtain rfl := Option.some.inj (found.symm.trans found')
    cases refused.symm.trans typed
  | breakdown =>
    obtain ⟨fate', handled', breakdown⟩ := h
    obtain rfl := handled.unique handled'
    rw [if_pos breakdown]
  | verdict =>
    obtain ⟨message, handled'⟩ := h
    obtain rfl := handled.unique handled'
    rfl

/-- A step fails for one cause. -/
theorem Holds.unique (h : c.Holds p s t) (g : c'.Holds p s t) : c = c' := by
  cases c with
  | unknown => exact (eq_unknown h g).symm
  | mismatch =>
    obtain ⟨d, m, found, refused⟩ := h
    exact (eq_mismatch found refused g).symm
  | breakdown =>
    obtain ⟨fate, handled, breakdown⟩ := h
    rw [eq_of_handled handled g, if_pos breakdown]
  | verdict =>
    obtain ⟨message, handled⟩ := h
    exact (eq_of_handled handled g).symm

theorem eq_of_code? {code : String} (h : c.code? = some code) (g : c'.code? = some code) :
    c = c' := by
  have same : c.code? = c'.code? := h.trans g.symm
  cases c <;> cases c' <;> first | rfl | simp [code?] at same

theorem letter_of_code? {code : String} (h : c.code? = some code) :
    ':' ∉ code.toList ∧ (code.toList.head? = some 'A' ∨ code.toList.head? = some 'P') := by
  cases c <;> cases h <;> decide +kernel

end Cause

/-- A failed result that shows this cause in its message. -/
def StepResult.Tells (r : StepResult) (c : Cause) : Prop :=
  (∃ e, r = .error e ∧ c.code? = some e.code) ∨
    c = .verdict ∧ ∃ message, r = .ok (some (.failed message)) ∧ Plain (.failed message)

theorem StepResult.Tells.beginsWith_iff (tells : r.Tells c) {code : String}
    (coded : c'.code? = some code) : BeginsWith code r.recorded.2 ↔ c = c' := by
  obtain ⟨colon, letter⟩ := Cause.letter_of_code? coded
  obtain ⟨e, rfl, own⟩ | ⟨rfl, message, rfl, plain⟩ := tells
  · refine (beginsWith_describe_iff colon e).trans ⟨?_, ?_⟩
    · rintro rfl
      exact Cause.eq_of_code? own coded
    · rintro rfl
      exact Option.some.inj (own.symm.trans coded)
  · refine iff_of_false (Outcome.not_beginsWith plain letter) ?_
    rintro rfl
    cases coded

/-- A result is fatal unless its cause is an action that is not found or a failed outcome. -/
theorem StepResult.Tells.isFatal_iff (tells : r.Tells c) :
    r.isFatal = true ↔ c = .mismatch ∨ c = .breakdown := by
  obtain ⟨e, rfl, own⟩ | ⟨rfl, message, rfl, -⟩ := tells
  · rw [isFatal, Error.isFatal_iff]
    cases c with
    | unknown | mismatch | breakdown => simp [← Option.some.inj own]
    | verdict => cases own
  · simp [isFatal]

namespace Policy

theorem prepare_eq_error {res : StepResult} (h : p.prepare s = .error res) :
    res = .ok none ∨ p.registry.lookup? s.action = none ∧ res = .error (.actionNotFound s.action) ∨
      ∃ d m, p.registry.lookup? s.action = some d ∧ coerce d.params s.params = .error m ∧
        res = .error (.parameterMismatch d.name m.message) := by
  unfold prepare at h
  split at h
  · exact .inl (Except.error.inj h).symm
  · cases found : p.registry.lookup? s.action with
    | none =>
      rw [Registry.lookup_of_lookup?_eq_none found] at h
      exact .inr (.inl ⟨rfl, (Except.error.inj h).symm⟩)
    | some d =>
      simp only [Registry.lookup_eq_ok_iff.2 found] at h
      cases coerced : coerce d.params s.params with
      | ok ps =>
        rw [coerced] at h
        cases h
      | error m =>
        rw [coerced] at h
        exact .inr (.inr ⟨d, m, rfl, coerced, (Except.error.inj h).symm⟩)

theorem coerce_of_prepared {d : Definition} {ps : Params} (h : p.prepare s = .ok (d, ps)) :
    coerce d.params s.params = .ok ps := by
  have found := lookup_of_prepared h
  unfold prepare at h
  rw [found] at h
  split at h
  · cases h
  · cases coerced : coerce d.params s.params with
    | error m =>
      simp only [coerced] at h
      cases h
    | ok ps' =>
      simp only [coerced] at h
      cases h
      rfl

/-- A step that fails does so for one of the causes, and its result tells which. -/
theorem cause_of_execute (ends : Ends (p.execute s) t (.ok r))
    (failure : r.recorded.1 = .failure) : ∃ c : Cause, c.Holds p s t ∧ r.Tells c := by
  obtain ⟨r', unprepared, -, same⟩ | ⟨d, ps, start, ys, fate, prepared, rfl, run, same⟩ :=
    ends_execute_cases ends
  · obtain rfl := Except.ok.inj same
    obtain rfl | ⟨unknown, rfl⟩ | ⟨d, m, found, refused, rfl⟩ := prepare_eq_error unprepared
    · cases failure
    · exact ⟨.unknown, unknown, .inl ⟨_, rfl, rfl⟩⟩
    · exact ⟨.mismatch, ⟨d, m, found, refused⟩, .inl ⟨_, rfl, rfl⟩⟩
  · have found := Registry.lookup_eq_ok_iff.1 (lookup_of_prepared prepared)
    have handled : Handled p s (⟨.now, start⟩ :: ys) fate :=
      ⟨d, ps, start, ys, found, coerce_of_prepared prepared, rfl, run⟩
    rcases fate with (e | outcome) | q | _ | q
    · obtain rfl := Except.ok.inj same
      exact ⟨.breakdown, ⟨_, handled, rfl⟩, .inl ⟨_, rfl, rfl⟩⟩
    · obtain rfl := Except.ok.inj same
      cases outcome with
      | passed message => cases failure
      | failed message =>
        obtain ⟨xs, ended⟩ := ends_of_within run
        exact ⟨.verdict, ⟨message, handled⟩,
          .inr ⟨rfl, message, rfl, d.behavior.returns_plain p.settings ps xs _ ended⟩⟩
    · obtain rfl := Except.ok.inj same
      exact ⟨.breakdown, ⟨_, handled, rfl⟩, .inl ⟨_, rfl, rfl⟩⟩
    · obtain rfl := Except.ok.inj same
      exact ⟨.breakdown, ⟨_, handled, rfl⟩, .inl ⟨_, rfl, rfl⟩⟩
    · cases same

/-- The code before a message stands there exactly if this is the cause. -/
theorem beginsWith_iff_holds (ends : Ends (p.execute s) t (.ok r))
    (failure : r.recorded.1 = .failure) {code : String} (coded : c.code? = some code) :
    BeginsWith code r.recorded.2 ↔ c.Holds p s t := by
  obtain ⟨c', holds, tells⟩ := cause_of_execute ends failure
  rw [tells.beginsWith_iff coded]
  constructor
  · rintro rfl
    exact holds
  · exact holds.unique

/-- No code stands before a message exactly if it is that of a failed outcome. -/
theorem verdict_holds_iff (ends : Ends (p.execute s) t (.ok r))
    (failure : r.recorded.1 = .failure) :
    (∀ c code, Cause.code? c = some code → ¬ BeginsWith code r.recorded.2) ↔
      Cause.verdict.Holds p s t := by
  obtain ⟨c, holds, tells⟩ := cause_of_execute ends failure
  constructor
  · intro none
    cases coded : c.code? with
    | some code => exact absurd ((tells.beginsWith_iff coded).2 rfl) (none c code coded)
    | none =>
      cases c with
      | verdict => exact holds
      | unknown | mismatch | breakdown => cases coded
  · intro verdict c' code coded begins
    obtain rfl := ((beginsWith_iff_holds ends failure coded).1 begins).unique verdict
    cases coded

/-- Unless failures are to stop the run, the message tells whether the step was the last one. -/
theorem isLast_iff_beginsWith (ends : Ends (p.execute s) t (.ok r))
    (failure : r.recorded.1 = .failure) (lenient : p.stopOnFailure = false) :
    p.IsLast r ↔ BeginsWith "ParameterMismatch" r.recorded.2 ∨
      BeginsWith "ActionRuntimeFailure" r.recorded.2 := by
  obtain ⟨c, -, tells⟩ := cause_of_execute ends failure
  rw [← stops_iff, stops, lenient, Bool.and_false, Bool.or_false, tells.isFatal_iff,
    tells.beginsWith_iff (rfl : Cause.mismatch.code? = _),
    tells.beginsWith_iff (rfl : Cause.breakdown.code? = _)]

end Policy

/-! ## Entries of a report -/

namespace Orchestrator

variable {o : Orchestrator} {case : TestCase} {b : Report} {log : Log}

/-- The report of a run that executed steps is made of the log that they left. -/
theorem steps_of_execute (h : Ends (o.execute case) t (.ok b)) : (∀ e ∈ b.entries, e.index = 0) ∨
    ∃ id start setup body after log d, t = ⟨.now, start⟩ :: (setup ++ (body ++ after)) ∧
      Ends (o.manager.acquire o.config) setup (.ok (.ok id)) ∧
      Ends (o.steps case start) body log ∧ b = .ofLog case.name log d := by
  obtain ⟨start, _, rfl, afterNow⟩ := ends_ask_bind_iff.1 h
  obtain ⟨setup, rest, acquired, rfl, acquire, afterAcquire⟩ := ends_bind_iff.1 afterNow
  rcases acquired with p | e | id
  · cases (ends_done_iff.1 afterAcquire).2
  · obtain ⟨u, _, rfl, last⟩ := ends_ask_bind_iff.1 afterAcquire
    obtain ⟨rfl, same⟩ := ends_done_iff.1 last
    cases same
    refine .inl ?_
    simp [Report.ofLog, setupFailure, Log.push, Log.abort]
  · obtain ⟨body, after, log, rfl, steps, afterSteps⟩ := ends_bind_iff.1 afterAcquire
    obtain ⟨a, _, rfl, afterQuit⟩ := ends_ask_bind_iff.1 afterSteps
    obtain ⟨_, _, rfl, afterVacate⟩ := ends_ask_bind_iff.1 afterQuit
    obtain ⟨u, _, rfl, last⟩ := ends_ask_bind_iff.1 afterVacate
    obtain ⟨rfl, same⟩ := ends_done_iff.1 last
    cases same
    exact .inr ⟨id, start, setup, body, _, log, _, rfl, acquire, steps, rfl⟩

/-- This execution is that of the step that the entry of a run at this place is about, and the log
is the one that the report was made of. -/
def Attempts (o : Orchestrator) (case : TestCase) (t : Trace) (b : Report) (k : Nat)
    (x : Execution) (log : Log) : Prop :=
  ∃ id start d setup body walked closing after tail xs rest,
    t = ⟨.now, start⟩ :: (setup ++ (body ++ after)) ∧
    Ends (o.manager.acquire o.config) setup (.ok (.ok id)) ∧
    Ends (o.steps case start) body log ∧ b = .ofLog case.name log d ∧
    body = walked ++ closing ∧ Executed o.policy case.steps walked xs rest tail ∧
    xs[k - 1]? = some x

section

variable {xs : List Execution} {x : Execution} {k : Nat}

theorem getLast?_entries_eq_some_iff (held : xs[k]? = some x) :
    (xs.mapIdx fun i x => x.entry (i + 1)).getLast? = some (x.entry (k + 1)) ↔
      xs.length = k + 1 := by
  obtain ⟨inside, -⟩ := List.getElem?_eq_some_iff.1 held
  rw [List.getLast?_eq_getElem?, List.length_mapIdx, List.getElem?_mapIdx]
  constructor
  · intro last
    obtain ⟨y, -, same⟩ := Option.map_eq_some_iff.1 last
    have index : xs.length - 1 + 1 = k + 1 := congrArg Entry.index same
    omega
  · intro length
    rw [length, Nat.add_sub_cancel, held, Option.map_some]

/-- An entry of a step is that of an executed one, and the log was aborted with it exactly if the
result of the step is one after which no step is executed. -/
theorem entry_of_log {rest : List Step} {tail : Trace} {n : Nat} {aborts : Prop}
    (shape : ¬ aborts ∧ IsLogOf p n xs tail log ∨ aborts ∧ IsBrokenLogOf p xs rest tail log)
    {e : Entry} (mem : e ∈ log.entries) (isStep : 1 ≤ e.index) :
    ∃ x, xs[e.index - 1]? = some x ∧ e = x.entry e.index ∧
      ((log.aborted = true ∧ log.entries.getLast? = some e) ↔ p.IsLast x.result) := by
  obtain ⟨-, complete⟩ | ⟨-, @⟨s, more, during, q, start, d, goesOn, -⟩⟩ := shape
  · rw [complete.entries] at mem ⊢
    obtain ⟨k, at_⟩ := List.mem_iff_getElem?.1 mem
    rw [List.getElem?_mapIdx] at at_
    obtain ⟨x, held, rfl⟩ := Option.map_eq_some_iff.1 at_
    refine ⟨x, held, rfl, ?_⟩
    rw [complete.aborted_iff, getLast?_entries_eq_some_iff held]
    constructor
    · rintro ⟨⟨y, last, isLast⟩, length⟩
      rw [List.getLast?_eq_getElem?, length, Nat.add_sub_cancel, held] at last
      exact Option.some.inj last ▸ isLast
    · intro isLast
      have length : xs.length = k + 1 := by
        by_contra more
        obtain ⟨inside, rfl⟩ := List.getElem?_eq_some_iff.1 held
        refine complete.goesOn _ (List.mem_iff_getElem.2 ⟨k, ?_, ?_⟩) isLast
        · rw [List.length_dropLast]
          omega
        · exact List.getElem_dropLast _
      refine ⟨⟨x, ?_, isLast⟩, length⟩
      rw [List.getLast?_eq_getElem?, length, Nat.add_sub_cancel, held]
  · obtain mem | mem := List.mem_append.1 mem
    · obtain ⟨k, at_⟩ := List.mem_iff_getElem?.1 mem
      rw [List.getElem?_mapIdx] at at_
      obtain ⟨x, held, rfl⟩ := Option.map_eq_some_iff.1 at_
      refine ⟨x, held, rfl, iff_of_false ?_ (goesOn x (List.mem_of_getElem? held))⟩
      rintro ⟨-, last⟩
      rw [List.getLast?_concat] at last
      cases congrArg Entry.index (Option.some.inj last)
    · obtain rfl := List.mem_singleton.1 mem
      cases isStep

end

/-- **The message tells the cause and the consequence.** The entry of a step that failed begins with
the code of an unknown action, of bad parameters or of a failure at run time exactly if this is what
became of the step, whatever errors the action itself met with. It begins with none of these codes
exactly if the action came to a failed outcome, whatever the names and texts in it are. Unless
failures are to stop a run, one that has bad parameters or failed at run time aborts it, and no
other does. -/
theorem message_tells_cause (ends : Ends (o.execute case) t (.ok b)) {e : Entry}
    (mem : e ∈ b.entries) (isStep : 1 ≤ e.index) (failure : e.status = .failure) :
    ∃ x log, o.Attempts case t b e.index x log ∧
      Ends (o.policy.execute x.step) x.trace (.ok x.result) ∧ e = x.entry e.index ∧
      (BeginsWith "ActionNotFound" e.message ↔ o.policy.registry.lookup? e.action = none) ∧
      (BeginsWith "ParameterMismatch" e.message ↔ ∃ d m,
        o.policy.registry.lookup? e.action = some d ∧ coerce d.params x.step.params = .error m) ∧
      (BeginsWith "ActionRuntimeFailure" e.message ↔
        ∃ fate, Handled o.policy x.step x.trace fate ∧ fate.isBreakdown = true) ∧
      ((¬ BeginsWith "ActionNotFound" e.message ∧ ¬ BeginsWith "ParameterMismatch" e.message ∧
          ¬ BeginsWith "ActionRuntimeFailure" e.message) ↔
        ∃ message, Handled o.policy x.step x.trace (.answered (.ok (.failed message)))) ∧
      (o.policy.stopOnFailure = false →
        ((log.aborted = true ∧ log.entries.getLast? = some e) ↔
          BeginsWith "ParameterMismatch" e.message ∨
            BeginsWith "ActionRuntimeFailure" e.message)) := by
  obtain none | ⟨id, start, setup, body, after, log, d, whole, acquire, steps, rfl⟩ :=
    steps_of_execute ends
  · rw [none e mem] at isStep
    cases isStep
  · obtain ⟨walked, closing, xs, rest, tail, split_, executed, shape⟩ :=
      (steps_of_ends steps).log_cases
    obtain ⟨x, held, same, aborts⟩ := entry_of_log shape mem isStep
    have run := executed.ends x (List.mem_of_getElem? held)
    have action : e.action = x.step.action := congrArg Entry.action same
    have message : e.message = x.result.recorded.2 := congrArg Entry.message same
    have failed : x.result.recorded.1 = .failure := (congrArg Entry.status same).symm.trans failure
    rw [action, message]
    refine ⟨x, log, ⟨id, start, d, setup, body, walked, closing, after, tail, xs, rest, whole,
      acquire, steps, rfl, split_, executed, held⟩, run, same, ?_, ?_, ?_, ?_, fun lenient => ?_⟩
    · exact Policy.beginsWith_iff_holds run failed (rfl : Cause.unknown.code? = _)
    · exact Policy.beginsWith_iff_holds run failed (rfl : Cause.mismatch.code? = _)
    · exact Policy.beginsWith_iff_holds run failed (rfl : Cause.breakdown.code? = _)
    · refine Iff.trans ⟨?_, ?_⟩ (Policy.verdict_holds_iff run failed)
      · rintro ⟨unknown, mismatch, breakdown⟩ c code coded
        cases c with
        | unknown => exact Option.some.inj coded ▸ unknown
        | mismatch => exact Option.some.inj coded ▸ mismatch
        | breakdown => exact Option.some.inj coded ▸ breakdown
        | verdict => cases coded
      · exact fun none => ⟨none .unknown _ rfl, none .mismatch _ rfl, none .breakdown _ rfl⟩
    · rw [aborts]
      exact Policy.isLast_iff_beginsWith run failed lenient

/-- A case that knows no action `fly`, and does not say which key to press. -/
def mistaken : TestCase :=
  { keyPress with steps := [{ action := "fly" }, { action := "pressKey" }] }

/-- The unknown action is passed over, and the missing key aborts the run. -/
theorem message_tells_cause_mismatch : ∃ (t : Trace) (b : Report) (e : Entry) (x : Execution)
    (log : Log), Ends (plainRun.execute mistaken) t (.ok b) ∧ e ∈ b.entries ∧ e.index = 2 ∧
      plainRun.Attempts mistaken t b 2 x log ∧
      BeginsWith "ParameterMismatch" e.message ∧
      (∃ d m, plainRun.policy.registry.lookup? e.action = some d ∧
        coerce d.params x.step.params = .error m) ∧
      ¬ BeginsWith "ActionRuntimeFailure" e.message ∧
      log.aborted = true ∧ log.entries.getLast? = some e := by
  have reported : ((plainRun.execute mistaken).run (Rehearsal.environment .deserted {}) none
      { outside := {} }).1.report?.any (fun b => b.entries.any fun e =>
        e.index = 2 ∧ e.status = .failure ∧ BeginsWith "ParameterMismatch" e.message ∧
          ¬ BeginsWith "ActionRuntimeFailure" e.message) = true := by decide +kernel
  generalize ran : (plainRun.execute mistaken).run (Rehearsal.environment .deserted {}) none
    { outside := {} } = out at reported
  obtain ⟨progress, w⟩ := out
  obtain ⟨b, report, entered⟩ := (Option.any_eq_true _ _).1 reported
  obtain ⟨e, mem, told⟩ := List.any_eq_true.1 entered
  obtain ⟨index, failure, mismatch, other⟩ := of_decide_eq_true told
  obtain rfl := Progress.report?_eq_some_iff.1 report
  have ends := Course.ends_of_run ran
  have isStep : 1 ≤ e.index := by
    rw [index]
    decide
  obtain ⟨x, log, attempted, -, -, -, refused, -, -, aborts⟩ :=
    message_tells_cause ends mem isStep failure
  obtain ⟨aborted, last⟩ := (aborts rfl).2 (.inl mismatch)
  rw [index] at attempted
  exact ⟨_, b, e, x, log, ends, mem, index, attempted, mismatch, refused.1 mismatch, other,
    aborted, last⟩

end Orchestrator

end Run

end UiRunner
