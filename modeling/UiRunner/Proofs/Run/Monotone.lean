import UiRunner.Proofs.Action.Readiness
import UiRunner.Proofs.Run.Polling

/-!
# Polling finds more with less

In any world, polling that wants less of an element finds one no later. Where answers do not depend
on the clock, polling for longer finds the same element: until the deadline of the shorter polling
both do the same, and the look that the shorter one makes at its deadline is only made later.
-/
namespace UiRunner.Run

open Routine UiRunner.Action

variable {σ α β : Type} {env : Environment σ} {w w' v u : World σ}

/-! ## Runs of scripts -/

/-- From one world to the other the script comes to this value. -/
def Gets (env : Environment σ) (w : World σ) (p : Script α) (a : α) (u : World σ) : Prop :=
  (within none p.run).run env none w = (.finished (.answered (.ok a)), u)

/-- A script that has come to its end got there by its exchanges. -/
theorem advances_of_run {p : Routine Action.stage α} {a : α}
    (run : (within none p).run env none w = (.finished (.answered a), u)) :
    ∃ xs, Advances env w p xs u (.done a) := by
  induction p generalizing w with
  | done b =>
    cases run
    exact ⟨[], .here _ _⟩
  | ask r next ih =>
    obtain ⟨t, due⟩ : ∃ t, (w.act env none r).due = some t := by
      rw [within] at run
      exact Course.due_of_run run
    obtain ⟨x, v, answer⟩ : ∃ x v, (w.act env none r).finish
        ((w.act env none r).world.reach t) = (x, v) := ⟨_, _, rfl⟩
    rw [within_run_of_due next due answer] at run
    cases x with
    | answered b =>
      obtain ⟨xs, rest⟩ := ih b run
      exact ⟨_, .ask due answer rest⟩
    | panicked | cut | crashed => cases run

namespace Advances

variable {xs ys zs : List Action.Exchange}

theorem split {p q : Routine Action.stage α} (h : Advances env w p (ys ++ zs) u q) :
    ∃ v p', Advances env w p ys v p' ∧ Advances env v p' zs u q := by
  generalize whole : ys ++ zs = xs at h
  induction h generalizing ys with
  | here w p =>
    obtain ⟨rfl, rfl⟩ := List.append_eq_nil_iff.1 whole
    exact ⟨w, p, .here w p, .here w p⟩
  | @ask w v u r next t x xs q due answer rest ih =>
    cases ys with
    | nil =>
      subst whole
      exact ⟨w, _, .here w _, .ask due answer rest⟩
    | cons y ys =>
      obtain ⟨rfl, tail⟩ := List.cons.inj whole
      obtain ⟨z, p', first, second⟩ := ih tail
      exact ⟨z, p', .ask due answer first, second⟩

/-- What the exchanges lead to does not depend on who makes them. -/
theorem follow {p q : Routine Action.stage α} (h : Advances env w p xs u q)
    {p' : Routine Action.stage β} {b : β} (ends : Ends p' xs b) :
    Advances env w p' xs u (.done b) := by
  induction h generalizing p' with
  | here w p =>
    cases ends
    exact .here w _
  | ask due answer _ ih =>
    cases ends with
    | ask rest => exact .ask due answer (ih rest)

/-- A script that is over after some of the exchanges is over no later. -/
theorem run_of_prefix {p q : Routine Action.stage α} (h : Advances env w p xs u q)
    {p' : Routine Action.stage β} {b : β} (part : ys <+: xs) (ends : Ends p' ys b) :
    ∃ v, (within none p').run env none w = (.finished (.answered b), v) ∧ v.now ≤ u.now := by
  obtain ⟨zs, rfl⟩ := part
  obtain ⟨v, p₁, first, second⟩ := h.split
  exact ⟨v, (first.follow ends).run, second.le⟩

end Advances

theorem gets_bind_iff {p : Script α} {f : α → Script β} {b : β} :
    Gets env w (p >>= f) b u ↔ ∃ a v, Gets env w p a v ∧ Gets env v (f a) b u := by
  constructor
  · intro h
    obtain ⟨xs, advances⟩ := advances_of_run h
    obtain ⟨ys, zs, a, rfl, first, second⟩ := ends_bind_ok advances.ends
    obtain ⟨v, p', before, after⟩ := advances.split
    exact ⟨a, v, (before.follow first).run, (after.follow second).run⟩
  · rintro ⟨a, v, first, second⟩
    obtain ⟨xs, first⟩ := advances_of_run first
    obtain ⟨ys, second⟩ := advances_of_run second
    exact (first.bind second).run

theorem gets_pure_iff {a b : α} : Gets env w (pure a : Script α) b u ↔ a = b ∧ w = u := by
  simp [Gets, within, Course.run]

theorem gets_now_bind_iff {f : Nat → Script β} {b : β} :
    Gets env w (Script.now >>= f) b u ↔ Gets env w (f w.now) b u := by
  have begins : Advances env w (Script.now >>= f).run [⟨.now, w.now⟩] w (f w.now).run :=
    .now_bind (.here w _)
  rw [Gets, begins.run, Gets]

theorem gets_pause_bind_iff {d : Span} {f : Unit → Script β} {b : β} :
    Gets env w (Script.pause d >>= f) b u ↔ Gets env (w.reach (Clock.wake w.now d)) (f ()) b u := by
  have begins : Advances env w (Script.pause d >>= f).run [⟨.pause d, ()⟩]
      (w.reach (Clock.wake w.now d)) (f ()).run := by
    refine .ask (t := Clock.wake w.now d) ?_ ?_ (.here _ _)
    · simp [World.act_none, World.await, World.pause, Underway.map]
    · simp [World.act_none, World.await, World.pause, Underway.map]
  rw [Gets, begins.run, Gets]

/-! ## Answers that do not depend on the clock -/

/-- What a command does and answers depends on the commands before it only, and not on the time.
How long it takes may depend on the time as well. -/
def Environment.Timeless (env : Environment σ) : Prop :=
  ∀ now now' c s, (env.command now' c s).begun = (env.command now c s).begun ∧
    (env.command now' c s).finish = (env.command now c s).finish ∧
    ((env.command now' c s).takes.isSome ↔ (env.command now c s).takes.isSome)

def IsCommand (r : Action.Request) : Prop := ∃ c, r = .command c

theorem structural_command : Structural fun p => Asks IsCommand p.run where
  pure := asks_pure
  bind := asks_bind
  find _ := asks_command ⟨_, rfl⟩
  displayed _ := asks_command ⟨_, rfl⟩
  enabled _ := asks_command ⟨_, rfl⟩

@[simp] theorem World.signal_outside (w : World σ) : w.signal.outside = w.outside := by
  unfold signal
  split <;> rfl

/-- What comes of a command that is answered at some instant. -/
theorem World.finish_command (env : Environment σ) (w : World σ) (c : Device.Command) (t : Nat) :
    let r := env.command w.now c w.outside
    let answer := (w.act env none (.command c)).finish ((w.act env none (.command c)).world.reach t)
    answer.1 = Fate.ofExcept (r.finish r.begun).1 ∧ answer.2.outside = (r.finish r.begun).2 := by
  simp only [act_none, await, Underway.map, call, true_and, reach]
  split <;> simp

theorem World.isSome_due_command (env : Environment σ) (w : World σ) (c : Device.Command) :
    (w.act env none (.command c)).due.isSome = (env.command w.now c w.outside).takes.isSome := by
  simp [act_none, await, Underway.map, call]

/-- Commands that are made later lead to the same. -/
theorem Environment.Timeless.advances (timeless : env.Timeless) {p q : Routine Action.stage α}
    {xs : List Action.Exchange} (h : Advances env w p xs u q) (asks : Asks IsCommand p)
    (same : w'.outside = w.outside) :
    ∃ u', Advances env w' p xs u' q ∧ u'.outside = u.outside := by
  induction h generalizing w' with
  | here w p => exact ⟨w', .here w' p, same⟩
  | @ask w v u r next t x xs q due answer _ ih =>
    obtain ⟨⟨c, rfl⟩, asks⟩ := asks
    obtain ⟨begun, finish, takes⟩ := timeless w.now w'.now c w.outside
    obtain ⟨t', due'⟩ : ∃ t', (w'.act env none (.command c)).due = some t' := by
      rw [← Option.isSome_iff_exists, World.isSome_due_command, same, takes,
        ← World.isSome_due_command, due]
      rfl
    obtain ⟨x', v', answer'⟩ : ∃ x' v', (w'.act env none (.command c)).finish
        ((w'.act env none (.command c)).world.reach t') = (x', v') := ⟨_, _, rfl⟩
    have ends := World.finish_command env w c t
    have ends' := World.finish_command env w' c t'
    simp only [answer] at ends
    simp only [answer', same, begun, finish] at ends'
    obtain rfl : x' = .answered x := ends'.1.trans ends.1.symm
    obtain ⟨u', advances, outside⟩ := ih (asks x) (ends'.2.trans ends.2.symm)
    exact ⟨u', .ask due' answer' advances, outside⟩

theorem Environment.Timeless.gets (timeless : env.Timeless) {p : Script α} {a : α}
    (asks : Asks IsCommand p.run) (same : w'.outside = w.outside) (h : Gets env w p a u) :
    ∃ u', Gets env w' p a u' := by
  obtain ⟨xs, advances⟩ := advances_of_run h
  obtain ⟨u', later, -⟩ := timeless.advances advances asks same
  exact ⟨u', later.run⟩

/-! ## Polling for longer -/

section Longer

variable {query : Query} {r : Readiness} {interval left : Nat} {deadline : Option Nat}
  {e : Device.ElementId}

/-- The world after the pause that follows a look. -/
def afterGap (interval : Nat) (deadline : Option Nat) (v : World σ) : World σ :=
  v.reach (Clock.wake v.now (.ofMillis (gap interval deadline v.now)))

theorem outside_afterGap (interval : Nat) (deadline : Option Nat) (v : World σ) :
    (afterGap interval deadline v).outside = v.outside := rfl

/-- Polling finds an element by its first attempt, or after a pause by those that follow. -/
theorem gets_pollTimes_iff :
    Gets env w (pollTimes query r interval deadline (left + 1)) (some e) u ↔
      Gets env w (attempt query r) (some e) u ∨
      ∃ v, Gets env w (attempt query r) none v ∧ (∀ d, deadline = some d → v.now < d) ∧
        Gets env (afterGap interval deadline v)
          (pollTimes query r interval deadline left) (some e) u := by
  change Gets env w (attempt query r >>= _) (some e) u ↔ _
  rw [gets_bind_iff]
  constructor
  · rintro ⟨found, v, looked, rest⟩
    cases found with
    | some e' =>
      obtain ⟨same, rfl⟩ := gets_pure_iff.1 rest
      exact .inl (same ▸ looked)
    | none =>
      refine .inr ⟨v, looked, ?_⟩
      cases deadline with
      | none => exact ⟨by simp, gets_pause_bind_iff.1 rest⟩
      | some d =>
        have judged := gets_now_bind_iff.1 rest
        by_cases passed : d ≤ v.now
        · rw [if_pos passed] at judged
          cases (gets_pure_iff.1 judged).1
        · rw [if_neg passed] at judged
          exact ⟨by simpa using passed, gets_pause_bind_iff.1 judged⟩
  · rintro (looked | ⟨v, looked, early, later⟩)
    · exact ⟨some e, u, looked, gets_pure_iff.2 ⟨rfl, rfl⟩⟩
    · refine ⟨none, v, looked, ?_⟩
      cases deadline with
      | none => exact gets_pause_bind_iff.2 later
      | some d =>
        refine gets_now_bind_iff.2 ?_
        rw [if_neg (by simpa using early)]
        exact gets_pause_bind_iff.2 later

theorem Gets.le {p : Script α} {a : α} (h : Gets env w p a u) : w.now ≤ u.now := by
  obtain ⟨xs, advances⟩ := advances_of_run h
  exact advances.le

theorem not_gets_forever {a : α} : ¬ Gets env w Script.forever a u := by
  intro h
  obtain ⟨xs, advances⟩ := advances_of_run h
  obtain ⟨x, -⟩ := ends_ask_iff.1 advances.ends
  cases x

variable {deadline' : Option Nat}

/-- A later deadline leaves a pause as it is, unless the pause leads to the earlier deadline. -/
theorem gap_cases (interval now : Nat)
    (later : ∀ d', deadline' = some d' → ∃ d, deadline = some d ∧ d ≤ d') :
    gap interval deadline' now = gap interval deadline now ∨
      ∃ d, deadline = some d ∧ gap interval deadline now = d - now := by
  cases deadline with
  | none =>
    cases deadline' with
    | none => exact .inl rfl
    | some d' => simpa using later d' rfl
  | some d =>
    by_cases whole : interval ≤ d - now
    · refine .inl ?_
      cases deadline' with
      | none => simp [gap, whole]
      | some d' =>
        obtain ⟨_, ⟨⟩, le⟩ := later d' rfl
        simp only [gap]
        omega
    · exact .inr ⟨d, rfl, by simp only [gap]; omega⟩

/-- Two worlds are the same, or in one of them the deadline is reached, and the outside of both is
the same. -/
def Together (deadline : Option Nat) (w w' : World σ) : Prop :=
  w' = w ∨ w'.outside = w.outside ∧ ∃ d, deadline = some d ∧ d ≤ w.now

theorem together_afterGap (later : ∀ d', deadline' = some d' → ∃ d, deadline = some d ∧ d ≤ d')
    (onClock : ∀ d, deadline = some d → d < Clock.end_)
    (early : ∀ d, deadline = some d → v.now < d) :
    Together deadline (afterGap interval deadline v) (afterGap interval deadline' v) := by
  obtain same | ⟨d, set, last⟩ := gap_cases interval v.now later
  · exact .inl (by rw [afterGap, afterGap, same])
  · have before := early d set
    have fits : Clock.fits v.now (.ofMillis (d - v.now)) := by
      have onClock := onClock d set
      simp only [Clock.fits, Span.millis_ofMillis, decide_eq_true_eq]
      omega
    have reached : d ≤ (afterGap interval deadline v).now := by
      rw [afterGap, last, Clock.wake_of_fits fits, Span.millis_ofMillis]
      simp only [World.reach]
      omega
    exact .inr ⟨by rw [outside_afterGap, outside_afterGap], d, set, reached⟩

/-- With a later deadline the same element is found. Either both are in the same world, or the one
with the earlier deadline has reached it and makes its last attempt. -/
theorem gets_pollTimes_later (timeless : env.Timeless)
    (later : ∀ d', deadline' = some d' → ∃ d, deadline = some d ∧ d ≤ d')
    (onClock : ∀ d, deadline = some d → d < Clock.end_) {left' : Nat} (le : left ≤ left')
    (together : Together deadline w w')
    (h : Gets env w (pollTimes query r interval deadline left) (some e) u) :
    ∃ u', Gets env w' (pollTimes query r interval deadline' left') (some e) u' := by
  induction left generalizing left' w w' with
  | zero => exact absurd h not_gets_forever
  | succ left ih =>
    obtain ⟨left', rfl⟩ : ∃ n, left' = n + 1 := ⟨left' - 1, by omega⟩
    simp only [gets_pollTimes_iff] at h ⊢
    obtain looked | ⟨v, looked, early, rest⟩ := h
    · have same : w'.outside = w.outside := by
        obtain rfl | ⟨same, -⟩ := together
        · rfl
        · exact same
      obtain ⟨u', found⟩ := timeless.gets (structural_command.attempt query r) same looked
      exact ⟨u', .inl found⟩
    · obtain rfl | ⟨-, d, set, reached⟩ := together
      · have early' : ∀ d', deadline' = some d' → v.now < d' := by
          intro d' set'
          obtain ⟨d, set, le⟩ := later d' set'
          exact (early d set).trans_le le
        obtain ⟨u', found⟩ := ih (Nat.le_of_succ_le_succ le)
          (together_afterGap later onClock early) rest
        exact ⟨u', .inr ⟨v, looked, early', found⟩⟩
      · have before := looked.le
        have after := early d set
        omega

theorem gets_poll_iff {s : Settings} {secs : Nat} :
    Gets env w (poll s query secs r) (some e) u ↔
      Gets env w (pollTimes query r s.interval (deadlineOf w.now (secs * 1000))
        (attemptsWithin secs s.interval)) (some e) u := by
  rw [poll, gets_now_bind_iff]
  simp [deadlineOf, Clock.fits]

theorem gets_poll_longer (timeless : env.Timeless) {s : Settings} {secs secs' : Nat}
    (le : secs ≤ secs') (h : Gets env w (poll s query secs r) (some e) u) :
    ∃ u', Gets env w (poll s query secs' r) (some e) u' := by
  simp only [gets_poll_iff] at h ⊢
  refine gets_pollTimes_later timeless ?_ ?_ ?_ (.inl rfl) h
  · intro d' set'
    obtain ⟨rfl, onClock⟩ := deadlineOf_eq_some_iff.1 set'
    have sooner : w.now + secs * 1000 ≤ w.now + secs' * 1000 := by omega
    exact ⟨_, deadlineOf_eq_some_iff.2 ⟨rfl, sooner.trans_lt onClock⟩, sooner⟩
  · exact fun d set => (deadlineOf_eq_some_iff.1 set).2
  · exact Nat.add_le_add_right (Nat.div_le_div_right (by omega)) 1

end Longer

/-- **Polling finds more with less.** In any world polling that wants less of an element finds one
when polling that wants more does, and no later; so waiting for an element, visible or only present,
passes no later than a click comes to it. Where answers do not depend on the clock, polling for
longer finds the same element. -/
theorem polling_monotone (env : Environment σ) (s : Settings) :
    (∀ (query : Query) (secs : Nat) (r r' : Readiness) (w u : World σ) (e : Device.ElementId),
      r.strength ≤ r'.strength → Gets env w (poll s query secs r') (some e) u →
      ∃ e' v, Gets env w (poll s query secs r) (some e') v ∧ v.now ≤ u.now) ∧
    (∀ (ps ps' : Params) (w u : World σ) (xs : List Action.Exchange) (e : Device.ElementId)
      (next : Except Error Unit → Routine Action.stage (Except Error Outcome)), SameSearch ps ps' →
      Advances env w (Behavior.click.script s ps).run xs u (.ask (.command (.click e)) next) →
      ∃ m v, Gets env w (Behavior.waitForElement.script s ps') (.passed m) v ∧ v.now ≤ u.now) ∧
    (env.Timeless → ∀ (query : Query) (secs secs' : Nat) (r : Readiness) (w u : World σ)
      (e : Device.ElementId), secs ≤ secs' → Gets env w (poll s query secs r) (some e) u →
      ∃ v, Gets env w (poll s query secs' r) (some e) v) := by
  refine ⟨fun query secs r r' w u e le found => ?_, fun ps ps' w u xs e next same clicks => ?_,
    fun timeless query secs secs' r w u e le found => gets_poll_longer timeless le found⟩
  · obtain ⟨xs, advances⟩ := advances_of_run found
    obtain ⟨ys, e', part, found'⟩ := findsWithin_poll le advances.ends
    obtain ⟨v, run, earlier⟩ := advances.run_of_prefix part found'
    exact ⟨e', v, run, earlier⟩
  · obtain ⟨ys, m, part, passes⟩ := passes_of_click same clicks.reaches
    obtain ⟨v, run, earlier⟩ := clicks.run_of_prefix part passes
    exact ⟨m, v, run, earlier⟩

/-- Answers of a device after so many searches: a button turns up with the third one, and can be
clicked from the fourth one on. -/
def bashful (searches : Nat) : (c : Device.Command) → c.Answer
  | .find _ => if searches < 3 then none else some "b"
  | .displayed _ => true
  | .enabled _ => 4 ≤ searches
  | .click _ | .typeKeys .. | .activate _ | .pressKey _ => ()
  | .text _ | .currentPackage => ""
  | .screenshot => default

/-- The device takes 30 milliseconds for each command. -/
def counting : Environment Nat where
  command _ c n :=
    { begun := match c with
        | .find _ => n + 1
        | _ => n
      takes := some 30, finish := fun n => (.ok (.ok (bashful n c)), n) }
  check _ _ _ n := { begun := n, finish := fun n => (.ok (.ok ()), n) }
  connect _ _ n := { begun := n, finish := fun n => (.ok (.ok ""), n) }
  quit _ n := { begun := n, finish := fun n => (.ok (), n) }

theorem exists_gets {p : Script α} {a : α}
    (h : ((within none p.run).run env none w).1.result?.bind Fate.answer? = some (.ok a)) :
    ∃ u, Gets env w p a u := by
  rcases run : (within none p.run).run env none w with ⟨x, u⟩
  rw [run] at h
  obtain ⟨fate, result, answered⟩ := Option.bind_eq_some_iff.1 h
  obtain rfl := Progress.result?_eq_some_iff.1 result
  cases fate with
  | answered b =>
    obtain rfl := Option.some.inj answered
    exact ⟨u, run⟩
  | panicked | cut | crashed => cases answered

/-- A button that is looked for during two seconds. -/
def bashfulButton : Params where
  entries := [("kind", .str "id"), ("value", .str "buy"), ("timeout", .int 2)]

def bashfulPresence : Params where
  entries := bashfulButton.entries ++ [("visible", .bool false)]

/-- The button is visible with the third look, which is the last one within a second and can be made
later, and clickable with the fourth. -/
theorem polling_monotone_bashful :
    (∃ e u v, Gets counting { outside := 0 } (poll {} ⟨"id", "buy"⟩ 2 .clickable) (some "b") u ∧
      Gets counting { outside := 0 } (poll {} ⟨"id", "buy"⟩ 2 .visible) (some e) v ∧
      v.now ≤ u.now) ∧
    (∃ m v, Gets counting { outside := 0 } (Behavior.waitForElement.script {} bashfulPresence)
      (.passed m) v) ∧
    (∃ u, Gets counting { outside := 0 } (poll {} ⟨"id", "buy"⟩ 1 .visible) (some "b") u) ∧
    ∃ v, Gets counting { outside := 0 } (poll {} ⟨"id", "buy"⟩ 2 .visible) (some "b") v := by
  have timeless : counting.Timeless := fun _ _ _ _ => ⟨rfl, rfl, Iff.rfl⟩
  obtain ⟨u, clickable⟩ : ∃ u, Gets counting { outside := 0 } (poll {} ⟨"id", "buy"⟩ 2 .clickable)
      (some "b") u := exists_gets (by decide +kernel)
  obtain ⟨u', visible⟩ : ∃ u, Gets counting { outside := 0 } (poll {} ⟨"id", "buy"⟩ 1 .visible)
      (some "b") u := exists_gets (by decide +kernel)
  obtain ⟨weaker, waits, longer⟩ := polling_monotone counting {}
  obtain ⟨e, v, found, earlier⟩ := weaker _ _ .visible .clickable _ _ _ (by decide) clickable
  refine ⟨⟨e, u, v, clickable, found, earlier⟩, ?_, ⟨u', visible⟩,
    longer timeless _ 1 2 _ _ _ _ (by decide) visible⟩
  have same : SameSearch bashfulButton bashfulPresence :=
    ⟨by decide +kernel, by decide +kernel, by decide +kernel⟩
  have resolved : queryOf bashfulButton = .ok ⟨"id", "buy"⟩ := by decide +kernel
  have timeout : timeoutOf bashfulButton = 2 := by decide +kernel
  obtain ⟨xs, polled⟩ := advances_of_run clickable
  obtain ⟨passed, failed, click⟩ := exists_script_click {} bashfulButton
  obtain ⟨next, clicks⟩ : ∃ next, Advances counting { outside := 0 }
      (Behavior.click.script {} bashfulButton).run (xs ++ []) u
      (.ask (.command (.click "b")) next) := by
    rw [click]
    unfold touching
    rw [timeout]
    obtain ⟨e, refused, -⟩ | ⟨selector, query, accepted, run⟩ := run_selecting bashfulButton _
    · cases resolved.symm.trans refused
    · obtain rfl := Except.ok.inj (resolved.symm.trans accepted)
      rw [run]
      exact ⟨_, polled.bind (.here _ _)⟩
  obtain ⟨m, v, waited, -⟩ := waits _ _ _ _ _ _ _ same clicks
  exact ⟨m, v, waited⟩

end UiRunner.Run
