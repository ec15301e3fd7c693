import UiRunner.Proofs.Action.FailFast

/-!
# Scripts that come to an end

Where every command is answered, a script can only wait without end when it polls for an element.
It does not as long as the deadline is on the clock: each pause takes the clock on by an interval,
or to the deadline itself, so it has passed the deadline before the attempts run out.
-/
namespace UiRunner.Action

open Device Routine

variable {α β : Type} {t : Nat}

/-- Begun at an instant, a script comes to an end, whatever the answers are and however long they
take. -/
inductive Halts : Nat → Routine stage α → Prop where
  | done (t : Nat) (a : α) : Halts t (.done a)
  | command {t : Nat} {c : Command} {next : Except Error c.Answer → Routine stage α} :
      (∀ x u, t ≤ u → Halts u (next x)) → Halts t (.ask (.command c) next)
  | pause {t : Nat} {d : Span} {next : Unit → Routine stage α} :
      Halts (Clock.wake t d) (next ()) → Halts t (.ask (.pause d) next)
  | now {t : Nat} {next : Nat → Routine stage α} : Halts t (next t) → Halts t (.ask .now next)
  | makeDirectories {t : Nat} {p : Path} {next : Except Files.Problem Unit → Routine stage α} :
      (∀ x u, t ≤ u → Halts u (next x)) → Halts t (.ask (.makeDirectories p) next)
  | write {t : Nat} {p : Path} {content : Bytes}
      {next : Except Files.Problem Unit → Routine stage α} :
      (∀ x u, t ≤ u → Halts u (next x)) → Halts t (.ask (.write p content) next)

namespace Halts

theorem pure (a : α) : Halts t (pure a : Script α).run := .done t _

theorem ite {c : Prop} [Decidable c] {p q : Script α} (h : Halts t p.run) (g : Halts t q.run) :
    Halts t (if c then p else q : Script α).run := by
  split
  · exact h
  · exact g

theorem bind {p : Script α} {f : α → Script β} (h : Halts t p.run)
    (g : ∀ a u, t ≤ u → Halts u (f a).run) : Halts t (p >>= f).run := by
  suffices ∀ (q : Routine stage (Except Error α)) (s : Nat), t ≤ s → Halts s q →
      Halts s (ExceptT.mk q >>= f).run from this p.run t (Nat.le_refl t) h
  intro q s le halts
  induction halts with
  | done s a =>
    cases a with
    | error e => exact .done s _
    | ok a => exact g a s le
  | command _ ih => exact .command fun x u later => ih x u later (Nat.le_trans le later)
  | pause _ ih => exact .pause (ih (Nat.le_trans le (Clock.le_wake ..)))
  | now _ ih => exact .now (ih le)
  | makeDirectories _ ih =>
    exact .makeDirectories fun x u later => ih x u later (Nat.le_trans le later)
  | write _ ih => exact .write fun x u later => ih x u later (Nat.le_trans le later)

theorem commanded (c : Command) : Halts t (Script.command c).run :=
  .command fun x u _ => .done u x

theorem command_bind {c : Command} {f : c.Answer → Script β} (g : ∀ a u, Halts u (f a).run) :
    Halts t (Script.command c >>= f).run :=
  .bind (.commanded c) fun a u _ => g a u

theorem pause_bind {d : Span} {f : Unit → Script β} (g : Halts (Clock.wake t d) (f ()).run) :
    Halts t (Script.pause d >>= f).run := .pause g

theorem now_bind {f : Nat → Script β} (g : Halts t (f t).run) :
    Halts t (Script.now >>= f).run := .now g

/-! ## Polling -/

theorem structural : Structural fun p => ∀ t, Halts t p.run where
  pure a _ := pure a
  bind h g t := bind (h t) fun a u _ => g a u
  find _ _ := commanded _
  displayed _ _ := commanded _
  enabled _ _ := commanded _

theorem attempt (query : Query) (r : Readiness) : Halts t (attempt query r).run :=
  structural.attempt query r t

/-- Polling ends when the attempts that are left reach the deadline. -/
theorem pollTimes (query : Query) (r : Readiness) {interval left deadline : Nat}
    (onClock : deadline < Clock.end_) (reaches : deadline ≤ t + left * interval) :
    Halts t (pollTimes query r interval (some deadline) (left + 1)).run := by
  induction left generalizing t with
  | zero =>
    refine .bind (.attempt query r) fun res u later => ?_
    cases res with
    | some e => exact .pure (some e)
    | none =>
      refine .now_bind ?_
      rw [if_pos (by omega)]
      exact .pure none
  | succ left ih =>
    refine .bind (.attempt query r) fun res u later => ?_
    cases res with
    | some e => exact .pure (some e)
    | none =>
      refine .now_bind ?_
      split
      · exact .pure none
      · have fits : Clock.fits u (.ofMillis (min interval (deadline - u))) := by
          simp only [Clock.fits, Span.millis_ofMillis, decide_eq_true_eq]
          omega
        refine .pause_bind (ih ?_)
        rw [Clock.wake_of_fits fits, Span.millis_ofMillis]
        rw [Nat.add_mul] at reaches
        omega

/-- Polling for so many seconds ends when that is on the clock. -/
theorem poll (s : Settings) (query : Query) {secs : Nat} (r : Readiness)
    (fits : Clock.fits t (.ofSecs secs) = true) : Halts t (poll s query secs r).run := by
  refine .now_bind ?_
  rw [if_pos fits]
  have onClock : t + secs * 1000 < Clock.end_ := by simpa [Clock.fits] using fits
  refine .pollTimes query r onClock (Nat.add_le_add_left ?_ t)
  have positive := s.interval_pos
  have room := Nat.lt_div_mul_add (a := secs * 1000 + s.interval - 1) positive
  omega

theorem selecting {ps : Params} {f : Selector → Query → Script Outcome}
    (h : ∀ selector query, Halts t (f selector query).run) : Halts t (selecting ps f).run := by
  obtain ⟨e, -, run⟩ | ⟨selector, query, -, run⟩ := run_selecting ps f
  · exact run ▸ .done t _
  · exact run ▸ h selector query

theorem settle_bind (s : Settings) {f : Unit → Script β} (h : ∀ u, Halts u (f ()).run) :
    Halts t (settle s >>= f).run := by
  unfold settle
  split
  · exact .pause_bind (h _)
  · exact h t

end Halts

/-- An action that is about no element, or polls for one until an instant on the clock, comes to
an end. -/
theorem Behavior.halts (b : Behavior) (s : Settings) (ps : Params)
    (fits : b.selects = true → Clock.fits t (.ofSecs (timeoutOf ps)) = true) :
    Halts t (b.script s ps).run := by
  cases b with
  | launchApp =>
    refine .command_bind fun _ u => .pause_bind (.command_bind fun current v => ?_)
    exact .ite (.pure _) (.pure _)
  | click =>
    refine .selecting fun _ query => .bind (.poll s query _ (fits rfl)) fun res u _ => ?_
    cases res with
    | none => exact .pure _
    | some e => exact .command_bind fun _ v => .settle_bind s fun _ => .pure _
  | typeText =>
    refine .selecting fun _ query => .bind (.poll s query _ (fits rfl)) fun res u _ => ?_
    cases res with
    | none => exact .pure _
    | some e => exact .command_bind fun _ v => .settle_bind s fun _ => .pure _
  | waitForElement =>
    refine .selecting fun _ query => .bind (.poll s query _ (fits rfl)) fun res u _ => ?_
    cases res with
    | none => exact .pure _
    | some e => exact .pure _
  | assertText =>
    refine .selecting fun _ query => .bind (.poll s query _ (fits rfl)) fun res u _ => ?_
    cases res with
    | none => exact .pure _
    | some e => exact .command_bind fun _ v => .ite (.pure _) (.pure _)
  | pressKey =>
    rw [script, Action.pressKey]
    cases Key.code? (ps.str "key") with
    | none => exact .pure _
    | some code => exact .command_bind fun _ u => .settle_bind s fun _ => .pure _
  | screenshot =>
    rw [script, Action.screenshot]
    refine .ite (.pure _) (.makeDirectories fun made u _ => ?_)
    cases made with
    | error e => exact .pure _
    | ok _ =>
      refine .command_bind fun png v => .write fun written v' _ => ?_
      cases written with
      | error e => exact .pure _
      | ok _ => exact .pure _
  | wait => exact .ite (.pure _) (.pause_bind (.pure _))

end UiRunner.Action
