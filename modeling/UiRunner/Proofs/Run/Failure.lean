import UiRunner.Proofs.Action.FailFast
import UiRunner.Proofs.Run.Interpretation
import UiRunner.Rehearsal.Environment

/-!
# Failing commands end a run

The first command that fails is the last request of its step, and its step is the last one of the
run: the interpreter records the failure, and no other request goes out.
-/
namespace UiRunner.Run

open Routine UiRunner.Action

/-- The error of a command of an action that failed. -/
def failed? : Exchange → Option Error
  | ⟨.act r _, .answered a⟩ => failure? ⟨r, a⟩
  | _ => none

/-- A command of an action failed with this error. -/
def Fails (x : Exchange) (e : Error) : Prop := failed? x = some e

instance (x : Exchange) (e : Error) : Decidable (Fails x e) :=
  inferInstanceAs (Decidable (failed? x = some e))

theorem fails_act_iff {r : Action.Request} {cutoff : Option Nat} {f : Fate r.Answer} {e : Error} :
    Fails ⟨.act r cutoff, f⟩ e ↔ ∃ a, f = .answered a ∧ failure? ⟨r, a⟩ = some e := by
  cases f <;> simp [Fails, failed?]

/-- Only what an action asks for can be a failing command. -/
theorem not_fails {r : Request} {x : r.Answer} {e : Error}
    (other : ∀ q cutoff, r ≠ .act q cutoff) : ¬ Fails ⟨r, x⟩ e := by
  cases r with
  | act q cutoff => exact absurd rfl (other q cutoff)
  | _ => simp [Fails, failed?]

/-- A trace that ends with a failing command, the first one in it. -/
def EndsFailing (xs : Trace) (x : Exchange) : Prop :=
  ∃ ys, xs = ys ++ [x] ∧ ∀ y ∈ ys, ∀ e, ¬ Fails y e

theorem EndsFailing.append {xs ys : Trace} {x : Exchange} (h : EndsFailing xs x)
    (calm : ∀ y ∈ ys, ∀ e, ¬ Fails y e) : EndsFailing (ys ++ xs) x := by
  obtain ⟨zs, rfl, before⟩ := h
  exact ⟨ys ++ zs, by simp, List.forall_mem_append.2 ⟨calm, before⟩⟩

theorem EndsFailing.cons {xs : Trace} {x y : Exchange} (h : EndsFailing xs x)
    (calm : ∀ e, ¬ Fails y e) : EndsFailing (y :: xs) x := by
  have before : ∀ z ∈ [y], ∀ e, ¬ Fails z e := by simpa using calm
  exact h.append before

section Script

variable {α : Type} {cutoff : Option Nat} {p : Routine Action.stage (Except Error α)}
  {xs : Trace} {f : Fate (Except Error α)}

/-- A script whose command fails ends there, with the error. -/
theorem within_fails (fast : FailsFast p) (h : Ends (within cutoff p) xs f) {x : Exchange}
    {e : Error} (hx : x ∈ xs) (failed : Fails x e) :
    EndsFailing xs x ∧ f = .answered (.error e) := by
  induction fast generalizing xs with
  | done a =>
    obtain ⟨rfl, -⟩ := ends_done_iff.1 h
    cases hx
  | @ask r next ends goesOn ih =>
    rw [within] at h
    obtain ⟨y, ys, rfl, rest⟩ := ends_ask_iff.1 h
    cases y with
    | answered a =>
      cases failure : failure? ⟨r, a⟩ with
      | some e' =>
        dsimp only at rest
        rw [ends a e' failure] at rest
        obtain ⟨rfl, rfl⟩ := ends_done_iff.1 rest
        obtain rfl := List.mem_singleton.1 hx
        obtain ⟨b, same, failure'⟩ := fails_act_iff.1 failed
        cases same
        cases failure.symm.trans failure'
        exact ⟨⟨[], rfl, by simp⟩, rfl⟩
      | none =>
        have calm : ∀ e, ¬ Fails ⟨.act r cutoff, Fate.answered a⟩ e := by
          intro e failed
          obtain ⟨b, same, failure'⟩ := fails_act_iff.1 failed
          cases same
          cases failure.symm.trans failure'
        obtain rfl | hx := List.mem_cons.1 hx
        · exact absurd failed (calm e)
        · obtain ⟨last, error⟩ := ih a failure rest hx
          exact ⟨last.cons calm, error⟩
    | panicked | cut | crashed =>
      obtain ⟨rfl, -⟩ := ends_done_iff.1 rest
      obtain rfl := List.mem_singleton.1 hx
      obtain ⟨b, same, -⟩ := fails_act_iff.1 failed
      cases same

end Script

namespace Policy

variable {p : Policy} {step : Step} {xs : Trace}

theorem execute_fails {res : Except Panic StepResult} (h : Ends (p.execute step) xs res)
    {x : Exchange} {e : Error} (hx : x ∈ xs) (failed : Fails x e) :
    EndsFailing xs x ∧ ∃ d, p.registry.lookup step.action = .ok d ∧
      res = .ok (.error (.actionRuntimeFailure d.name e.message)) := by
  obtain ⟨r, -, rfl, -⟩ | ⟨d, ps, t, ys, f, prepared, rfl, script, rfl⟩ := ends_execute_cases h
  · cases hx
  · have hx : x ∈ ys := by
      obtain rfl | hx := List.mem_cons.1 hx
      · exact absurd failed (not_fails nofun)
      · exact hx
    obtain ⟨e', -, ended⟩ | ⟨-, fast⟩ := d.behavior.script_cases p.settings ps
    · rw [ended] at script
      obtain ⟨rfl, -⟩ := ends_done_iff.1 script
      cases hx
    · obtain ⟨last, rfl⟩ := within_fails fast script hx failed
      exact ⟨last.cons fun _ => not_fails nofun, d, lookup_of_prepared prepared, rfl⟩

/-- A step after which another one is executed met with no failing command. -/
theorem not_fails_of_not_stops {r : StepResult} (h : Ends (p.execute step) xs (.ok r))
    (stops : p.stops r = false) : ∀ x ∈ xs, ∀ e, ¬ Fails x e := by
  intro x hx e failed
  obtain ⟨-, d, -, error⟩ := execute_fails h hx failed
  obtain rfl := Except.ok.inj error
  cases stops

end Policy

section Looks

variable {xs : Trace} {x : Exchange} {e : Error}

theorem not_fails_now {t : Nat} : ¬ Fails ⟨.now, t⟩ e := not_fails nofun

theorem not_fails_cancelled {b : Bool} : ¬ Fails ⟨.cancelled, b⟩ e := not_fails nofun

theorem mem_of_fails_cons {y : Exchange} (hx : x ∈ y :: xs) (failed : Fails x e)
    (calm : ¬ Fails y e) : x ∈ xs := by
  obtain rfl | hx := List.mem_cons.1 hx
  · exact absurd failed calm
  · exact hx

/-- The two looks before a step is executed cannot fail. -/
theorem mem_of_fails_looks {b : Bool} {t : Nat} (hx : x ∈ ⟨.cancelled, b⟩ :: ⟨.now, t⟩ :: xs)
    (failed : Fails x e) : x ∈ xs :=
  mem_of_fails_cons (mem_of_fails_cons hx failed not_fails_cancelled) failed not_fails_now

theorem EndsFailing.looks {b : Bool} {t : Nat} (h : EndsFailing xs x) :
    EndsFailing (⟨.cancelled, b⟩ :: ⟨.now, t⟩ :: xs) x :=
  (h.cons fun _ => not_fails_now).cons fun _ => not_fails_cancelled

end Looks

/-- A walk that meets with a failing command stops, with the failure in its last entry. -/
theorem Walk.fails {p : Policy} {k : Nat} {steps : List Step} {xs : Trace} {es : List Entry}
    {h : Halt} (walk : Walk p k steps xs es h) {x : Exchange} {e : Error} (hx : x ∈ xs)
    (failed : Fails x e) :
    h = .stopped ∧ (∃ ys u, xs = ys ++ [⟨.now, u⟩] ∧ EndsFailing ys x) ∧
      ∃ before s d duration, steps[before.length]? = some s ∧
        p.registry.lookup s.action = .ok d ∧
        es = before ++ [⟨k + before.length, s.action, .failure,
          (Error.actionRuntimeFailure d.name e.message).describe, duration⟩] := by
  induction walk with
  | finished => cases hx
  | cancelled => cases mem_of_fails_cons hx failed not_fails_cancelled
  | crashed t executed =>
    obtain ⟨-, d, -, error⟩ := Policy.execute_fails executed (mem_of_fails_looks hx failed) failed
    cases error
  | @stopped k s rest xs r t u executed stops =>
    obtain hx | hx := List.mem_append.1 (mem_of_fails_looks hx failed)
    · obtain ⟨last, d, found, error⟩ := Policy.execute_fails executed hx failed
      obtain rfl := Except.ok.inj error
      exact ⟨rfl, ⟨_, u, rfl, last.looks⟩, [], s, d, _, rfl, found, rfl⟩
    · cases mem_of_fails_cons hx failed not_fails_now
  | @step k s rest xs ys r es h t u executed stops _ ih =>
    have calm := Policy.not_fails_of_not_stops executed stops
    obtain hx | hx := List.mem_append.1 (mem_of_fails_looks hx failed)
    · exact absurd failed (calm x hx e)
    · have hx := mem_of_fails_cons hx failed not_fails_now
      obtain ⟨stopped, ⟨zs, v, rfl, last⟩, before, s', d, duration, at_, found, rfl⟩ := ih hx
      have last := ((last.cons fun _ => not_fails_now (t := u)).append calm).looks (b := false)
        (t := t)
      refine ⟨stopped, ⟨_, v, ?_, last⟩, r.entry k s t u :: before, s', d, duration, at_, found, ?_⟩
      · simp
      · simp [Nat.add_assoc, Nat.add_comm 1]

/-- **A failing command ends its action and the run.** It is the last command of its action, which
ends with the command's error and with no other one, unless its selector was rejected. The
interpreter records the error and executes no other step. -/
theorem failure_ends_run :
    (∀ (b : Behavior) (s : Action.Settings) (ps : Params) (xs : List Action.Exchange)
        (res : Except Error Outcome), Ends (b.script s ps).run xs res →
      (∀ x ∈ (callsIn xs).dropLast, failure? x = none) ∧
      ∀ e, res = .error e ↔
        b.Rejects ps e ∧ callsIn xs = [] ∨ (callsIn xs).getLast?.bind failure? = some e) ∧
    (∀ (b : Behavior) (s : Action.Settings) (ps : Params) (xs : List Action.Exchange)
        (r : Action.Request) (next : r.Answer → Routine Action.stage (Except Error Outcome)),
      Reaches (b.script s ps).run xs (.ask r next) → ∀ x ∈ xs, failure? x = none) ∧
    ∀ (p : Policy) (steps : List Step) (t : Trace) (log : Log) (panic : Option Panic)
        (x : Exchange) (e : Error), Ends (p.interpret steps) t (log, panic) → x ∈ t → Fails x e →
      panic = none ∧ log.aborted = true ∧
      (∃ before u, t = before ++ [x, ⟨.now, u⟩] ∧ ∀ y ∈ before, ∀ e', ¬ Fails y e') ∧
      ∃ before s d duration, steps[before.length]? = some s ∧
        p.registry.lookup s.action = .ok d ∧
        log.entries = before ++ [⟨before.length + 1, s.action, .failure,
          (Error.actionRuntimeFailure d.name e.message).describe, duration⟩] := by
  refine ⟨fun b s ps xs res ends => ?_, fun b s ps xs r next reaches => ?_,
    fun p steps t log panic x e ends hx failed => ?_⟩
  · exact ⟨Behavior.failure?_of_mem_dropLast ends, Behavior.eq_error_iff ends⟩
  · exact Behavior.failure?_of_reaches reaches
  · obtain ⟨es, halt, walk, out⟩ := Policy.walk_of_interpretFrom ends
    obtain ⟨rfl, ⟨ys, u, rfl, zs, rfl, calm⟩, before, s, d, duration, at_, found, rfl⟩ :=
      walk.fails hx failed
    obtain ⟨rfl, rfl⟩ := Prod.mk.inj out
    refine ⟨rfl, rfl, ⟨zs, u, by simp, calm⟩, before, s, d, duration, at_, found, ?_⟩
    simp [Halt.close, Log.abort, Nat.add_comm 1]

/-- The connection is lost at the second look for a button: it was not there, then it was found,
and whether it is displayed is not answered. A launch meets with the same loss after its pause. -/
theorem failure_ends_run_disconnected : ∃ (xs ys : List Action.Exchange) (r : Action.Request)
    (next : r.Answer → Routine Action.stage (Except Error Outcome)) (t : Trace) (log : Log)
    (x : Exchange),
    Ends (Behavior.launchApp.script {} { entries := [("package", .str "com.shop")] }).run xs
      (.error (.driver "connection reset")) ∧
    (∀ x ∈ (callsIn xs).dropLast, failure? x = none) ∧
    Reaches (Behavior.launchApp.script {} { entries := [("package", .str "com.shop")] }).run ys
      (.ask r next) ∧
    (∀ x ∈ ys, failure? x = none) ∧
    Ends (({} : Policy).interpret [{ action := "click", params := [("kind", .str "id"),
      ("value", .str "buy")] }]) t (log, none) ∧
    x ∈ t ∧ Fails x (.driver "connection reset") ∧ log.aborted = true := by
  let lost : Error := .driver "connection reset"
  let steps : List Step := [{ action := "click", params := [("kind", .str "id"),
    ("value", .str "buy")] }]
  let screen : Rehearsal.Screen :=
    { elements := [{ query := ⟨"id", "buy"⟩, found := some 1 }]
      faults := [⟨.only 2, .fails lost⟩] }
  let w : World Rehearsal.State := { outside := { screen } }
  let env := Rehearsal.environment .deserted {}
  have ended : ((({} : Policy).interpret steps).run env none w).1.result?.any
      (fun out => out.2 = none) = true := by decide +kernel
  have lossy : ((({} : Policy).interpret steps).trace env none w).any (Fails · lost) = true := by
    decide +kernel
  obtain ⟨⟨log, panic⟩, result, calm⟩ := (Option.any_eq_true _ _).1 ended
  obtain rfl : panic = none := of_decide_eq_true calm
  obtain ⟨x, hx, failed⟩ := List.any_eq_true.1 lossy
  have failed : Fails x lost := of_decide_eq_true failed
  have ends := Course.ends_of_run (Prod.ext (Progress.result?_eq_some_iff.1 result) rfl)
  let launch := (Behavior.launchApp.script {} { entries := [("package", .str "com.shop")] }).run
  have pauses : Reaches launch [⟨.command (.activate "com.shop"), .ok ()⟩]
      (.ask (.pause (.ofSeconds (.zero false))) _) := .ask (.here _)
  have launched : Ends launch
      [⟨.command (.activate "com.shop"), .ok ()⟩, ⟨.pause (.ofSeconds (.zero false)), ()⟩,
        ⟨.command .currentPackage, .error lost⟩] (.error lost) :=
    .ask (.ask (.ask (.done _)))
  exact ⟨_, _, _, _, _, log, x, launched, (failure_ends_run.1 _ _ _ _ _ launched).1, pauses,
    failure_ends_run.2.1 _ _ _ _ _ _ pauses, ends, hx, failed,
    (failure_ends_run.2.2 _ _ _ _ _ x _ ends hx failed).2.1⟩

end UiRunner.Run
