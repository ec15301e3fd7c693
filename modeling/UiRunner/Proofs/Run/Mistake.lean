import UiRunner.Proofs.Action.FailFast
import UiRunner.Proofs.Run.Tour
import UiRunner.Rehearsal.Environment

/-!
# Mistakes of authors

A step that cannot be carried out as it is written is found out before anything is asked of the
device, the files or the clock. A mistake in how an action is called ends the run; one in which
action is called, or in what a well-formed call is about, is recorded for its step only.
-/
namespace UiRunner

namespace Action

open Routine

variable {s : Settings} {ps : Params}

/-! ## Scripts that are over at once -/

theorem queryOf_of_unknownKind (unknown : Selector.Kind.ofName? (ps.str "kind") = none) :
    ∃ e, queryOf ps = .error e := by
  have parsed : selectorOf ps = .error (.invalidSelectorKind (ps.str "kind")) := by
    simp [selectorOf, Selector.parse, unknown]
  exact ⟨_, by rw [queryOf, parsed]; rfl⟩

theorem queryOf_of_emptyValue {kind : Selector.Kind}
    (known : Selector.Kind.ofName? (ps.str "kind") = some kind) (notText : kind ≠ .visibleText)
    (empty : ps.str "value" = "") : ∃ e, queryOf ps = .error e := by
  have parsed : selectorOf ps = .ok ⟨kind, ""⟩ := by
    simp [selectorOf, Selector.parse, known, empty]
  have refused : ∃ e, (⟨kind, ""⟩ : Selector).resolve = .error e := by
    simp [Selector.resolve, Selector.Kind.toleratesEmpty, notText]
  rw [queryOf, parsed]
  exact refused

/-- An action whose selector is rejected is over with that error. -/
theorem Behavior.Rejects.script_run {b : Behavior} {e : Error} (rejects : b.Rejects ps e) :
    (b.script s ps).run = .done (.error e) := by
  obtain ⟨e', rejects', ended⟩ | ⟨accepted, -⟩ := Behavior.script_cases s ps b
  · cases rejects.2.symm.trans rejects'.2
    exact ended
  · exact absurd rejects (accepted e)

theorem script_pressKey_of_unsupported (unsupported : Key.code? (ps.str "key") = none) :
    ∃ message, (Behavior.pressKey.script s ps).run = .done (.ok (.failed message)) := by
  simp only [Behavior.script, pressKey, unsupported]
  exact ⟨_, rfl⟩

theorem script_screenshot_of_unusable
    (unusable : Text.isBlankText (Files.safeName (ps.str "filename")) = true) :
    ∃ message, (Behavior.screenshot.script s ps).run = .done (.ok (.failed message)) := by
  simp only [Behavior.script, screenshot, unusable, ite_true]
  exact ⟨_, rfl⟩

theorem script_wait_of_negative (negative : (ps.float "seconds").isBelowZero = true) :
    ∃ message, (Behavior.wait.script s ps).run = .done (.ok (.failed message)) := by
  simp only [Behavior.script, wait, negative, ite_true]
  exact ⟨_, rfl⟩

end Action

namespace Run

open Routine UiRunner.Action

variable {σ : Type}

/-! ## Mistakes -/

/-- What can be wrong with a step as it is written. -/
inductive Mistake where
  | blankAction
  | unknownAction
  | badParameters
  | unknownKind
  | emptyValue
  | unsupportedKey
  | unusableName
  | negativeWait
deriving DecidableEq, Repr

namespace Mistake

/-- How the step is recorded. -/
def status : Mistake → Status
  | blankAction => .skipped
  | _ => .failure

/-- Whether the mistake ends the run whatever the policy is. -/
def isFatal : Mistake → Bool
  | badParameters | unknownKind | emptyValue => true
  | _ => false

end Mistake

namespace Policy

/-- The mistake in a step. The first three concern how it is read, the other ones a step that has
been read as the call of an action with typed parameters. -/
inductive Mistaken (p : Policy) (s : Step) : Mistake → Prop where
  | blankAction : Text.isBlankText s.action = true → Mistaken p s .blankAction
  | unknownAction {e : Error} : Text.isBlankText s.action = false →
      p.registry.lookup s.action = .error e → Mistaken p s .unknownAction
  | badParameters {d : Definition} {m : Mismatch} : Text.isBlankText s.action = false →
      p.registry.lookup s.action = .ok d → coerce d.params s.params = .error m →
      Mistaken p s .badParameters
  | unknownKind {d : Definition} {ps : Params} : p.prepare s = .ok (d, ps) →
      d.behavior.selects = true → Selector.Kind.ofName? (ps.str "kind") = none →
      Mistaken p s .unknownKind
  | emptyValue {d : Definition} {ps : Params} {kind : Selector.Kind} : p.prepare s = .ok (d, ps) →
      d.behavior.selects = true → Selector.Kind.ofName? (ps.str "kind") = some kind →
      kind ≠ .visibleText → ps.str "value" = "" → Mistaken p s .emptyValue
  | unsupportedKey {d : Definition} {ps : Params} : p.prepare s = .ok (d, ps) →
      d.behavior = .pressKey → Key.code? (ps.str "key") = none → Mistaken p s .unsupportedKey
  | unusableName {d : Definition} {ps : Params} : p.prepare s = .ok (d, ps) →
      d.behavior = .screenshot →
      Text.isBlankText (Files.safeName (ps.str "filename")) = true → Mistaken p s .unusableName
  | negativeWait {d : Definition} {ps : Params} : p.prepare s = .ok (d, ps) →
      d.behavior = .wait → (ps.float "seconds").isBelowZero = true → Mistaken p s .negativeWait

variable {p : Policy} {s : Step} {m : Mistake} {d : Definition} {ps : Params}

/-! ## Results of mistaken steps -/

/-- The step is over with this result before anything is asked for. -/
def ComesTo (p : Policy) (s : Step) (r : StepResult) : Prop :=
  ∀ {σ : Type} (env : Environment σ) (w : World σ),
    (p.execute s).run env none w = (.finished (.ok r), w)

theorem comesTo_of_unprepared {r : StepResult} (unprepared : p.prepare s = .error r) :
    p.ComesTo s r := by
  intro σ env w
  rw [execute_of_unprepared unprepared]
  rfl

theorem comesTo_of_ended {res : Except Error Outcome} {r : StepResult}
    (prepared : p.prepare s = .ok (d, ps))
    (ended : (d.behavior.script p.settings ps).run = .done res)
    (result : p.result d.name (.answered res) = .ok r) : p.ComesTo s r := by
  intro σ env w
  rw [execute_of_prepared prepared, perform, Course.run_now_bind, ended, ← result]
  rfl

/-- A mistaken step is over before anything is asked for, with a result that shows the mistake. -/
theorem Mistaken.comesTo (mistaken : p.Mistaken s m) :
    ∃ r, p.ComesTo s r ∧ r.recorded.1 = m.status ∧ r.isFatal = m.isFatal := by
  cases mistaken with
  | blankAction blank =>
    exact ⟨.ok none, comesTo_of_unprepared (by simp [prepare, blank]), rfl, rfl⟩
  | unknownAction named unknown =>
    obtain rfl := eq_of_lookup_eq_error unknown
    exact ⟨.error (.actionNotFound s.action),
      comesTo_of_unprepared (by simp [prepare, named, unknown]), rfl, rfl⟩
  | @badParameters d m named found bad =>
    exact ⟨.error (.parameterMismatch d.name m.message),
      comesTo_of_unprepared (by simp [prepare, named, found, bad]), rfl, rfl⟩
  | unknownKind prepared selects unknown =>
    obtain ⟨e, rejected⟩ := queryOf_of_unknownKind unknown
    have rejects : Behavior.Rejects _ _ e := ⟨selects, rejected⟩
    exact ⟨_, comesTo_of_ended prepared rejects.script_run rfl, rfl, rfl⟩
  | emptyValue prepared selects known notText empty =>
    obtain ⟨e, rejected⟩ := queryOf_of_emptyValue known notText empty
    have rejects : Behavior.Rejects _ _ e := ⟨selects, rejected⟩
    exact ⟨_, comesTo_of_ended prepared rejects.script_run rfl, rfl, rfl⟩
  | unsupportedKey prepared isPress unsupported =>
    obtain ⟨message, ended⟩ := script_pressKey_of_unsupported unsupported
    exact ⟨_, comesTo_of_ended prepared (by rwa [isPress]) rfl, rfl, rfl⟩
  | unusableName prepared isShot unusable =>
    obtain ⟨message, ended⟩ := script_screenshot_of_unusable unusable
    exact ⟨_, comesTo_of_ended prepared (by rwa [isShot]) rfl, rfl, rfl⟩
  | negativeWait prepared isWait negative =>
    obtain ⟨message, ended⟩ := script_wait_of_negative negative
    exact ⟨_, comesTo_of_ended prepared (by rwa [isWait]) rfl, rfl, rfl⟩

/-- What the interpreter makes of a step that is over at once. -/
theorem ComesTo.run_interpretFrom {r : StepResult} (comesTo : p.ComesTo s r)
    (env : Environment σ) (k : Nat) (rest : List Step) (log : Log) {w : World σ}
    (live : w.isCancelled = false) : (p.interpretFrom k (s :: rest) log).run env none w =
      if p.stops r then
        (.finished ((log.push ⟨k, s.action, r.recorded.1, r.recorded.2, .zero⟩).abort, none), w)
      else (p.interpretFrom (k + 1) rest
        (log.push ⟨k, s.action, r.recorded.1, r.recorded.2, .zero⟩)).run env none w := by
  rw [interpretFrom, Course.run_isCancelled_bind, live]
  simp only [Bool.false_eq_true, ite_false]
  rw [Course.run_now_bind, Course.run_bind, comesTo env w]
  dsimp only
  rw [Course.run_now_bind, Nat.sub_self]
  split <;> rfl

/-- **Mistakes of authors touch nothing.** A step with a mistake is executed in no time, and leaves
the device, the files and everything else in the world as it was. A blank action is skipped and any
other mistake is a failure; the run is aborted for parameters and selectors that are refused, or if
failures are to stop it, and otherwise goes on with the next step. -/
theorem mistakes_touch_nothing {σ : Type} (p : Policy) (env : Environment σ) (s : Step)
    (m : Mistake) (w : World σ) (mistaken : p.Mistaken s m) :
    ∃ r, (p.execute s).run env none w = (.finished (.ok r), w) ∧
      r.recorded.1 = m.status ∧ r.isFatal = m.isFatal ∧
      ∀ k rest log, w.isCancelled = false → (p.interpretFrom k (s :: rest) log).run env none w =
        if m.isFatal || m.status == .failure && p.stopOnFailure then
          (.finished ((log.push ⟨k, s.action, m.status, r.recorded.2, .zero⟩).abort, none), w)
        else (p.interpretFrom (k + 1) rest
          (log.push ⟨k, s.action, m.status, r.recorded.2, .zero⟩)).run env none w := by
  obtain ⟨r, comesTo, status, isFatal⟩ := mistaken.comesTo
  refine ⟨r, comesTo env w, status, isFatal, fun k rest log live => ?_⟩
  rw [comesTo.run_interpretFrom env k rest log live, stops, status, isFatal]

/-- A key that nobody knows does not end a run, and a click on an element without an id does: the
key after it is not pressed. -/
theorem mistakes_touch_nothing_emptyValue : ∃ message message' : String,
    (({} : Policy).interpret
      [{ action := "pressKey", params := [("key", .str "JUMP")] },
        { action := "click", params := [("kind", .str "id"), ("value", .str "")] },
        { action := "pressKey", params := [("key", .str "HOME")] }]).run
      (Rehearsal.environment .deserted {}) none { outside := {} } =
        (.finished ({ entries := [⟨1, "pressKey", .failure, message, .zero⟩,
                      ⟨2, "click", .failure, message', .zero⟩], aborted := true }, none),
          { outside := {} }) := by
  let env := Rehearsal.environment .deserted {}
  let w : World Rehearsal.State := { outside := {} }
  let jump : Step := { action := "pressKey", params := [("key", .str "JUMP")] }
  let click : Step := { action := "click", params := [("kind", .str "id"), ("value", .str "")] }
  let home : Step := { action := "pressKey", params := [("key", .str "HOME")] }
  have unsupported : (({} : Policy).prepare jump).toOption.any (fun x =>
      x.1.behavior = .pressKey ∧ Key.code? (x.2.str "key") = none) = true := by decide +kernel
  have empty : (({} : Policy).prepare click).toOption.any (fun x =>
      x.1.behavior.selects ∧ Selector.Kind.ofName? (x.2.str "kind") = some .resourceId ∧
        x.2.str "value" = "") = true := by decide +kernel
  obtain ⟨⟨d, ps⟩, jumped, unsupported⟩ := exists_ok_of_any unsupported
  obtain ⟨⟨d', ps'⟩, clicked, empty⟩ := exists_ok_of_any empty
  obtain ⟨isPress, unsupported⟩ := of_decide_eq_true unsupported
  obtain ⟨selects, known, empty⟩ := of_decide_eq_true empty
  obtain ⟨r, -, -, -, first⟩ := mistakes_touch_nothing {} env jump .unsupportedKey w
    (.unsupportedKey jumped isPress unsupported)
  obtain ⟨r', -, -, -, second⟩ := mistakes_touch_nothing {} env click .emptyValue w
    (.emptyValue clicked selects known nofun empty)
  have goesOn := first 1 [click, home] {} rfl
  have aborts := second 2 [home] (Log.push {} ⟨1, "pressKey", .failure, r.recorded.2, .zero⟩) rfl
  rw [if_neg (by decide)] at goesOn
  rw [if_pos (by decide)] at aborts
  exact ⟨r.recorded.2, r'.recorded.2, goesOn.trans aborts⟩

end Policy

end Run

end UiRunner
