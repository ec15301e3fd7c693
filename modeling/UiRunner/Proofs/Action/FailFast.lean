import UiRunner.Action.Behavior
import UiRunner.Proofs.Routine

/-!
# Failing commands

A command that fails ends its script: the script ends with the command's error, and asks for
nothing more. `FailsFast` says so of every point of a script, and every builtin action is of this
kind once its selector is accepted.
-/
namespace UiRunner.Action

open Device Routine

variable {α β : Type}

abbrev Exchange := Routine.Exchange stage

/-- Whether an exchange is a command to the device. -/
def isCall (x : Exchange) : Bool :=
  match x.request with
  | .command _ => true
  | _ => false

/-- The commands among the exchanges of a script. -/
def callsIn (xs : List Exchange) : List Exchange := xs.filter isCall

/-- The error of a command that failed. -/
def failure? : Exchange → Option Error
  | ⟨.command _, .error e⟩ => some e
  | _ => none

theorem isCall_of_failure? {x : Exchange} {e : Error} (h : failure? x = some e) :
    isCall x = true := by
  obtain ⟨r, x⟩ := x
  cases r <;> simp_all [failure?, isCall]

/-! ## Polling as it is put together -/

/-- A property that scripts have when they end with a value or only look at the screen, and that
sequences have when both of their parts have it. -/
structure Structural (P : {α : Type} → Script α → Prop) : Prop where
  pure {α : Type} (a : α) : P (Pure.pure a : Script α)
  bind {α β : Type} {p : Script α} {f : α → Script β} : P p → (∀ a, P (f a)) → P (p >>= f)
  find (query : Query) : P (Script.find query)
  displayed (e : ElementId) : P (Script.displayed e)
  enabled (e : ElementId) : P (Script.enabled e)

namespace Structural

variable {P : {α : Type} → Script α → Prop}

theorem holds (h : Structural P) (r : Readiness) (e : ElementId) : P (r.holds e) := by
  cases r with
  | present => exact h.pure true
  | visible => exact h.displayed e
  | clickable =>
    refine h.bind (h.displayed e) fun shown => ?_
    split
    · exact h.enabled e
    · exact h.pure false

theorem attempt (h : Structural P) (query : Query) (r : Readiness) : P (attempt query r) := by
  refine h.bind (h.find query) fun found => ?_
  cases found with
  | none => exact h.pure none
  | some e =>
    refine h.bind (h.holds r e) fun ready => ?_
    split
    · exact h.pure (some e)
    · exact h.pure none

variable (h : Structural P) (aside : ∀ r : Request, (∀ c, r ≠ .command c) → P (Script.ask r))

include h aside

theorem pollTimes (query : Query) (r : Readiness) (interval : Nat) (deadline : Option Nat)
    (left : Nat) : P (pollTimes query r interval deadline left) := by
  induction left with
  | zero =>
    refine h.bind (aside .forever (by simp)) fun x => ?_
    cases x
  | succ left ih =>
    refine h.bind (h.attempt query r) fun found => ?_
    cases found with
    | some e => exact h.pure (some e)
    | none =>
      cases deadline with
      | none => exact h.bind (aside (.pause _) (by simp)) fun _ => ih
      | some d =>
        refine h.bind (aside .now (by simp)) fun now => ?_
        split
        · exact h.pure none
        · exact h.bind (aside (.pause _) (by simp)) fun _ => ih

theorem poll (s : Settings) (query : Query) (secs : Nat) (r : Readiness) :
    P (poll s query secs r) :=
  h.bind (aside .now (by simp)) fun _ => h.pollTimes aside ..

end Structural

/-! ## Scripts that fail fast -/

/-- A failing command ends the script with its error, and nothing else ends it with an error. -/
inductive FailsFast : Routine stage (Except Error α) → Prop where
  | done (a : α) : FailsFast (.done (.ok a))
  | ask {r : Request} {next : r.Answer → Routine stage (Except Error α)} :
      (∀ x e, failure? ⟨r, x⟩ = some e → next x = .done (.error e)) →
      (∀ x, failure? ⟨r, x⟩ = none → FailsFast (next x)) → FailsFast (.ask r next)

namespace FailsFast

/-! ## Along a trace -/

section Trace

variable {p : Routine stage (Except Error α)} {xs : List Exchange}

/-- While a script waits for an answer, none of its commands has failed. -/
theorem failure?_of_reaches {r : Request} {next : r.Answer → Routine stage (Except Error α)}
    (fast : FailsFast p) (h : Reaches p xs (.ask r next)) : ∀ x ∈ xs, failure? x = none := by
  generalize waiting : Routine.ask (I := stage) r next = q at h
  induction h with
  | here p => simp
  | @ask r' next' x tail q before ih =>
    obtain - | ⟨ends, goesOn⟩ := fast
    have calm : failure? ⟨r', x⟩ = none := by
      by_contra failed
      obtain ⟨e, failed⟩ := Option.ne_none_iff_exists'.1 failed
      -- The script is over after a failure, but it is waiting.
      rw [ends x e failed] at before
      subst waiting
      cases before
    have rest := ih (goesOn x calm) waiting
    simpa [calm] using rest

/-- A script that has ended met with no failure, or its last command failed with its error. -/
theorem ends_cases {res : Except Error α} (fast : FailsFast p) (h : Ends p xs res) :
    (∃ a, res = .ok a) ∧ (∀ x ∈ xs, failure? x = none) ∨
      ∃ e ys y, res = .error e ∧ xs = ys ++ [y] ∧ failure? y = some e ∧
        ∀ x ∈ ys, failure? x = none := by
  induction h with
  | done res =>
    obtain ⟨a⟩ := fast
    exact .inl ⟨⟨a, rfl⟩, by simp⟩
  | @ask r next x tail res rest ih =>
    obtain - | ⟨ends, goesOn⟩ := fast
    cases failed : failure? ⟨r, x⟩ with
    | some e =>
      rw [ends x e failed] at rest
      obtain ⟨rfl, rfl⟩ := ends_done_iff.1 rest
      exact .inr ⟨e, [], _, rfl, rfl, failed, by simp⟩
    | none =>
      obtain ⟨ok, calm⟩ | ⟨e, ys, y, error, rfl, last, calm⟩ := ih (goesOn x failed)
      · exact .inl ⟨ok, by simpa [failed] using calm⟩
      · exact .inr ⟨e, _ :: ys, y, error, rfl, last, by simpa [failed] using calm⟩

end Trace

/-! ## Building scripts -/

theorem pure (a : α) : FailsFast (pure a : Script α).run := .done a

theorem ite {c : Prop} [Decidable c] {p q : Script α} (h : FailsFast p.run)
    (g : FailsFast q.run) : FailsFast (if c then p else q : Script α).run := by
  split
  · exact h
  · exact g

theorem bind {p : Script α} {f : α → Script β} (h : FailsFast p.run)
    (g : ∀ a, FailsFast (f a).run) : FailsFast (p >>= f).run := by
  suffices ∀ q : Routine stage (Except Error α), FailsFast q →
      FailsFast (ExceptT.mk q >>= f).run from this p.run h
  intro q fast
  induction fast with
  | done a => exact g a
  | @ask r next ends goesOn ih =>
    refine .ask (fun x e failed => ?_) ih
    change (ExceptT.mk (next x) >>= f).run = _
    rw [ends x e failed]
    rfl

theorem command (c : Command) : FailsFast (Script.command c).run := by
  refine .ask (fun x e failed => ?_) fun x calm => ?_ <;> rcases x with e' | a
  · cases failed
    rfl
  · cases failed
  · cases calm
  · exact .done a

/-- What is no command cannot fail. -/
theorem request {r : Request} (other : ∀ c, r ≠ .command c) : FailsFast (Script.ask r).run := by
  refine .ask (fun x e failed => ?_) fun x calm => .done x
  cases r <;> first | cases failed | exact absurd rfl (other _)

theorem settle (s : Settings) : FailsFast (settle s).run := .ite (.request nofun) (.pure ())

theorem structural : Structural fun p => FailsFast p.run :=
  ⟨pure, bind, fun _ => command _, fun _ => command _, fun _ => command _⟩

theorem poll (s : Settings) (query : Query) (secs : Nat) (r : Readiness) :
    FailsFast (poll s query secs r).run :=
  structural.poll (fun _ => request) s query secs r

end FailsFast

/-! ## Builtin actions -/

/-- What the selector among the parameters resolves to. -/
def queryOf (ps : Params) : Except Error Query := selectorOf ps >>= Selector.resolve

/-- Whether an action is about one element of the screen. -/
def Behavior.selects : Behavior → Bool
  | .click | .typeText | .waitForElement | .assertText => true
  | .launchApp | .pressKey | .screenshot | .wait => false

/-- The selector of the action is rejected with this error. -/
def Behavior.Rejects (b : Behavior) (ps : Params) (e : Error) : Prop :=
  b.selects = true ∧ queryOf ps = .error e

/-- How an action about an element begins. -/
def selecting (ps : Params) (f : Selector → Query → Script Outcome) : Script Outcome := do
  let selector ← selectorOf ps
  let query ← selector.resolve
  f selector query

theorem ok_bind (a : α) (f : α → Script β) :
    (liftM (.ok a : Except Error α) >>= f : Script β) = f a :=
  rfl

/-- A selector that is rejected asks for nothing. -/
theorem run_selecting (ps : Params) (f : Selector → Query → Script Outcome) :
    (∃ e, queryOf ps = .error e ∧ (selecting ps f).run = .done (.error e)) ∨
      ∃ selector query, queryOf ps = .ok query ∧ (selecting ps f).run = (f selector query).run := by
  unfold selecting queryOf
  cases parsed : selectorOf ps with
  | error e => exact .inl ⟨e, rfl, rfl⟩
  | ok selector =>
    rw [ok_bind]
    cases resolved : selector.resolve with
    | error e => exact .inl ⟨e, resolved, rfl⟩
    | ok query => exact .inr ⟨selector, query, resolved, rfl⟩

theorem selecting_cases (ps : Params) {f : Selector → Query → Script Outcome}
    (fast : ∀ selector query, FailsFast (f selector query).run) :
    (∃ e, queryOf ps = .error e ∧ (selecting ps f).run = .done (.error e)) ∨
      (∀ e, queryOf ps ≠ .error e) ∧ FailsFast (selecting ps f).run := by
  obtain rejected | ⟨selector, query, accepted, run⟩ := run_selecting ps f
  · exact .inl rejected
  · exact .inr ⟨by simp [accepted], run ▸ fast selector query⟩

namespace Behavior

variable {b : Behavior} (s : Settings) (ps : Params)

theorem exists_selecting (selects : b.selects = true) : ∃ f, b.script s ps = selecting ps f ∧
    ∀ selector query, FailsFast (f selector query).run := by
  cases b with
  | click =>
    refine ⟨_, rfl, fun selector query => .bind (.poll ..) fun found => ?_⟩
    cases found with
    | none => exact .pure _
    | some e => exact .bind (.command _) fun _ => .bind (.settle s) fun _ => .pure _
  | typeText =>
    refine ⟨_, rfl, fun selector query => .bind (.poll ..) fun found => ?_⟩
    cases found with
    | none => exact .pure _
    | some e => exact .bind (.command _) fun _ => .bind (.settle s) fun _ => .pure _
  | waitForElement =>
    refine ⟨_, rfl, fun selector query => .bind (.poll ..) fun found => ?_⟩
    cases found <;> exact .pure _
  | assertText =>
    refine ⟨_, rfl, fun selector query => .bind (.poll ..) fun found => ?_⟩
    cases found with
    | none => exact .pure _
    | some e => exact .bind (.command _) fun actual => .ite (.pure _) (.pure _)
  | launchApp | pressKey | screenshot | wait => cases selects

theorem failsFast (other : b.selects = false) : FailsFast (b.script s ps).run := by
  cases b with
  | launchApp =>
    refine .bind (.command _) fun _ => .bind (.request nofun) fun _ => ?_
    exact .bind (.command _) fun current => .ite (.pure _) (.pure _)
  | pressKey =>
    rw [script, Action.pressKey]
    cases Key.code? (ps.str "key") with
    | none => exact .pure _
    | some code => exact .bind (.command _) fun _ => .bind (.settle s) fun _ => .pure _
  | screenshot =>
    -- Unfolded by hand: unification would evaluate the file name in the condition.
    rw [script, Action.screenshot]
    refine .ite (.pure _) (.bind (.request nofun) fun made => ?_)
    cases made with
    | error e => exact .pure _
    | ok u =>
      refine .bind (.command _) fun png => .bind (.request nofun) fun written => ?_
      cases written <;> exact .pure _
  | wait => exact .ite (.pure _) (.bind (.request nofun) fun _ => .pure _)
  | click | typeText | waitForElement | assertText => cases other

/-- An action is over at once when its selector is rejected, and otherwise fails fast. -/
theorem script_cases (b : Behavior) :
    (∃ e, b.Rejects ps e ∧ (b.script s ps).run = .done (.error e)) ∨
      (∀ e, ¬ b.Rejects ps e) ∧ FailsFast (b.script s ps).run := by
  cases selects : b.selects with
  | true =>
    obtain ⟨f, script, fast⟩ := exists_selecting s ps selects
    rw [script]
    obtain ⟨e, rejected, ended⟩ | ⟨accepted, fast⟩ := selecting_cases ps fast
    · exact .inl ⟨e, ⟨selects, rejected⟩, ended⟩
    · exact .inr ⟨fun e rejects => accepted e rejects.2, fast⟩
  | false =>
    refine .inr ⟨fun e rejects => ?_, failsFast s ps selects⟩
    cases selects.symm.trans rejects.1

variable {s ps} {xs : List Exchange}

/-- While an action waits for an answer, none of its commands has failed. -/
theorem failure?_of_reaches {r : Request} {next : r.Answer → Routine stage (Except Error Outcome)}
    (h : Reaches (b.script s ps).run xs (.ask r next)) : ∀ x ∈ xs, failure? x = none := by
  obtain ⟨e, -, ended⟩ | ⟨-, fast⟩ := script_cases s ps b
  · rw [ended] at h
    cases h
  · exact fast.failure?_of_reaches h

/-- How an action ends: its selector is rejected, or no command fails, or the last one does. -/
theorem ends_cases {res : Except Error Outcome} (h : Ends (b.script s ps).run xs res) :
    (∃ e, b.Rejects ps e ∧ res = .error e ∧ callsIn xs = []) ∨
      (∀ e, ¬ b.Rejects ps e) ∧ ((∃ outcome, res = .ok outcome) ∧
          (∀ x ∈ callsIn xs, failure? x = none) ∨
        ∃ e calls y, res = .error e ∧ callsIn xs = calls ++ [y] ∧ failure? y = some e ∧
          ∀ x ∈ calls, failure? x = none) := by
  obtain ⟨e, rejects, ended⟩ | ⟨accepted, fast⟩ := script_cases s ps b
  · rw [ended] at h
    obtain ⟨rfl, rfl⟩ := ends_done_iff.1 h
    exact .inl ⟨e, rejects, rfl, rfl⟩
  · refine .inr ⟨accepted, ?_⟩
    obtain ⟨ok, calm⟩ | ⟨e, ys, y, error, rfl, last, calm⟩ := fast.ends_cases h
    · exact .inl ⟨ok, fun x hx => calm x (List.mem_of_mem_filter hx)⟩
    · have calls : callsIn (ys ++ [y]) = callsIn ys ++ [y] := by
        simp [callsIn, isCall_of_failure? last]
      exact .inr ⟨e, callsIn ys, y, error, calls, last,
        fun x hx => calm x (List.mem_of_mem_filter hx)⟩

/-- Every command of an action but its last one returned a value. -/
theorem failure?_of_mem_dropLast {res : Except Error Outcome}
    (h : Ends (b.script s ps).run xs res) : ∀ x ∈ (callsIn xs).dropLast, failure? x = none := by
  obtain ⟨e, -, -, none⟩ | ⟨-, ⟨-, calm⟩ | ⟨e, calls, y, -, eq, -, calm⟩⟩ := ends_cases h
  · simp [none]
  · exact fun x hx => calm x (List.dropLast_subset _ hx)
  · simpa [eq] using calm

/-- An action ends with an error exactly if its selector is rejected, without a command, or its
last command failed, and the error is that of the selector or of the command. -/
theorem eq_error_iff {res : Except Error Outcome} (h : Ends (b.script s ps).run xs res)
    (e : Error) : res = .error e ↔
      b.Rejects ps e ∧ callsIn xs = [] ∨ (callsIn xs).getLast?.bind failure? = some e := by
  obtain ⟨e', rejects, rfl, none⟩ | ⟨accepted, ⟨⟨outcome, rfl⟩, calm⟩ |
    ⟨e', calls, y, rfl, eq, last, -⟩⟩ := ends_cases h
  · have same : b.Rejects ps e ↔ e' = e := by
      constructor
      · rintro ⟨-, rejects'⟩
        exact Except.error.inj (rejects.2.symm.trans rejects')
      · rintro rfl
        exact rejects
    simp [none, same]
  · have none : (callsIn xs).getLast?.bind failure? ≠ some e := by
      intro failed
      obtain ⟨x, last, failed⟩ := Option.bind_eq_some_iff.1 failed
      cases (calm x (List.mem_of_getLast? last)).symm.trans failed
    simp [none, accepted]
  · simp [eq, last, accepted]

end Behavior

end UiRunner.Action
