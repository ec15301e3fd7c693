import Mathlib.Algebra.Order.Floor.Div
import UiRunner.Proofs.Action.Search
import UiRunner.Proofs.Run.Limit

/-!
# The pace of polling

In a world that answers every command with a value, polling is a list of looks at the screen. Each
begins an interval after the one before it has ended, or at the deadline if that comes first, and
one that ends at the deadline or later is the last.
-/
namespace UiRunner.Run

open Routine UiRunner.Action

variable {σ α β : Type} {env : Environment σ}

/-! ## Scripts in a world -/

/-- Without a limit a script gets from one world to another one, where it has come to this point,
with these exchanges. -/
inductive Advances (env : Environment σ) : World σ → Routine Action.stage α →
    List Action.Exchange → World σ → Routine Action.stage α → Prop where
  | here (w : World σ) (p : Routine Action.stage α) : Advances env w p [] w p
  | ask {w v u : World σ} {r : Action.Request} {next : r.Answer → Routine Action.stage α} {t : Nat}
      {x : r.Answer} {xs : List Action.Exchange} {q : Routine Action.stage α} :
      (w.act env none r).due = some t →
      (w.act env none r).finish ((w.act env none r).world.reach t) = (.answered x, v) →
      Advances env v (next x) xs u q → Advances env w (.ask r next) (⟨r, x⟩ :: xs) u q

/-- An exchange of a script as the run sees it. -/
def heard (x : Action.Exchange) : Exchange := ⟨.act x.request none, .answered x.answer⟩

namespace Advances

variable {w v u : World σ} {xs ys : List Action.Exchange}

theorem run {p q : Routine Action.stage α} (h : Advances env w p xs u q) :
    (within none p).run env none w = (within none q).run env none u := by
  induction h with
  | here w p => rfl
  | @ask w v u r next t x xs q due answer _ ih =>
    rw [within_run_of_due next due answer]
    exact ih

theorem trace {p q : Routine Action.stage α} (h : Advances env w p xs u q) :
    (within none p).trace env none w = xs.map heard ++ (within none q).trace env none u := by
  induction h with
  | here w p => rfl
  | @ask w v u r next t x xs q due answer _ ih =>
    rw [within_trace_of_due next due answer]
    exact congrArg _ ih

theorem reaches {p q : Routine Action.stage α} (h : Advances env w p xs u q) :
    Reaches p xs q := by
  induction h with
  | here w p => exact .here p
  | ask _ _ _ ih => exact .ask ih

theorem ends {p : Routine Action.stage α} {a : α} (h : Advances env w p xs u (.done a)) :
    Ends p xs a :=
  List.append_nil xs ▸ h.reaches.ends (.done a)

theorem le {p q : Routine Action.stage α} (h : Advances env w p xs u q) : w.now ≤ u.now := by
  induction h with
  | here w p => exact Nat.le_refl _
  | ask _ answer _ ih =>
    have later := (World.leads_of_answer answer).2
    omega

theorem bind {p : Script α} {f : α → Script β} {a : α} {q : Routine Action.stage (Except Error β)}
    (h : Advances env w p.run xs v (.done (.ok a))) (g : Advances env v (f a).run ys u q) :
    Advances env w (p >>= f).run (xs ++ ys) u q := by
  -- After an answer what is left of `p` is a routine and no script: the induction is on routines.
  generalize run : p.run = p' at h
  generalize ended : Routine.done (Except.ok a) = last at h
  change Advances env w (ExceptT.mk p.run >>= f).run (xs ++ ys) u q
  rw [run]
  clear run
  induction h with
  | here w last =>
    subst ended
    exact g
  | ask due answer _ ih => exact .ask due answer (ih g ended)

theorem ite_pos {c : Prop} [Decidable c] {p p' : Script α}
    {q : Routine Action.stage (Except Error α)} (h : c) (g : Advances env w p.run xs u q) :
    Advances env w (if c then p else p' : Script α).run xs u q := by
  rwa [if_pos h]

theorem ite_neg {c : Prop} [Decidable c] {p p' : Script α}
    {q : Routine Action.stage (Except Error α)} (h : ¬ c) (g : Advances env w p'.run xs u q) :
    Advances env w (if c then p else p' : Script α).run xs u q := by
  rwa [if_neg h]

/-- A look at the clock. -/
theorem now_bind {f : Nat → Script β} {q : Routine Action.stage (Except Error β)}
    (h : Advances env w (f w.now).run xs u q) :
    Advances env w (Script.now >>= f).run (⟨.now, w.now⟩ :: xs) u q :=
  .ask rfl (by simp [World.act_none, World.await, World.immediate, World.reach_self]) h

/-- A pause takes the clock on. -/
theorem pause_bind {d : Span} {f : Unit → Script β} {q : Routine Action.stage (Except Error β)}
    (fits : Clock.fits w.now d = true)
    (h : Advances env (w.reach (w.now + d.millis)) (f ()).run xs u q) :
    Advances env w (Script.pause d >>= f).run (⟨.pause d, ()⟩ :: xs) u q := by
  refine .ask (t := w.now + d.millis) ?_ ?_ h
  · simp [World.act_none, World.await, World.pause, Underway.map, Clock.wake_of_fits fits]
  · simp [World.act_none, World.await, World.pause, Underway.map]

end Advances

/-! ## Devices that serve -/

/-- Every command is answered at some time, and with a value. -/
def Environment.Serves (env : Environment σ) : Prop :=
  ∀ now c s, (∃ t, (env.command now c s).takes = some t) ∧
    ∀ s', ∃ a, ((env.command now c s).finish s').1 = .ok (.ok a)

/-- Commands take no time. -/
def Environment.Prompt (env : Environment σ) : Prop :=
  ∀ now c s, (env.command now c s).takes = some 0

/-- From every world the script comes to its end with a value, and takes no time when no command
does. -/
def Served (env : Environment σ) (p : Script α) : Prop :=
  ∀ w, ∃ xs u a, Advances env w p.run xs u (.done (.ok a)) ∧ (env.Prompt → u.now = w.now)

namespace Served

theorem pure (a : α) : Served env (pure a : Script α) :=
  fun w => ⟨[], w, a, .here w _, fun _ => rfl⟩

theorem bind {p : Script α} {f : α → Script β} (h : Served env p) (g : ∀ a, Served env (f a)) :
    Served env (p >>= f) := by
  intro w
  obtain ⟨xs, v, a, first, prompt⟩ := h w
  obtain ⟨ys, u, b, second, prompt'⟩ := g a v
  exact ⟨_, u, b, first.bind second, fun swift => (prompt' swift).trans (prompt swift)⟩

theorem command (serves : env.Serves) (c : Device.Command) : Served env (Script.command c) := by
  intro w
  obtain ⟨⟨t, takes⟩, values⟩ := serves w.now c w.outside
  obtain ⟨a, value⟩ := values (env.command w.now c w.outside).begun
  obtain ⟨x, u, answer⟩ : ∃ x u, (w.act env none (.command c)).finish
      ((w.act env none (.command c)).world.reach (w.now + t)) = (x, u) := ⟨_, _, rfl⟩
  have answered : ((w.act env none (.command c)).finish
      ((w.act env none (.command c)).world.reach (w.now + t))).1 = .answered (.ok a) := by
    simp only [World.act_none, World.await, Underway.map, World.call]
    exact congrArg Fate.ofExcept value
  obtain rfl : x = .answered (.ok a) := (congrArg Prod.fst answer).symm.trans answered
  have due := World.due_command takes
  rw [← World.act_none] at due
  refine ⟨_, u, a, .ask due answer (.here u _), fun swift => ?_⟩
  obtain rfl : t = 0 := by simpa [takes] using swift w.now c w.outside
  simpa using (World.leads_of_answer answer).2

theorem structural (serves : env.Serves) : Structural (Served env) :=
  ⟨pure, bind, fun _ => command serves _, fun _ => command serves _, fun _ => command serves _⟩

end Served

/-! ## Looks at the screen -/

/-- One attempt of polling. -/
structure Look (σ : Type) where
  before : World σ
  exchanges : List Action.Exchange
  after : World σ
  shown : Option Device.ElementId

/-- The attempt is made in the world before the look. -/
def Look.Made (env : Environment σ) (query : Query) (r : Readiness) (l : Look σ) : Prop :=
  Advances env l.before (attempt query r).run l.exchanges l.after (.done (.ok l.shown))

/-- How long after a look the next one begins. -/
def gap (interval : Nat) : Option Nat → Nat → Nat
  | some d, now => min interval (d - now)
  | none, _ => interval

/-- A look that ends at this instant is the last: the deadline has come or, without one, the clock
has no room for another interval. -/
def Over (interval : Nat) : Option Nat → Nat → Prop
  | some d, now => d ≤ now
  | none, now => Clock.end_ ≤ now + interval

/-- The looks of polling, the last one apart. Each but the last has shown nothing and is followed by
the next one after the gap. -/
inductive Paced (env : Environment σ) (query : Query) (r : Readiness) (interval : Nat)
    (deadline : Option Nat) : World σ → List (Look σ) → Look σ → Prop where
  | last {l : Look σ} : l.Made env query r → Paced env query r interval deadline l.before [] l
  | next {l last : Look σ} {looks : List (Look σ)} : l.Made env query r → l.shown = none →
      ¬ Over interval deadline l.after.now →
      Paced env query r interval deadline
        (l.after.reach (l.after.now + gap interval deadline l.after.now)) looks last →
      Paced env query r interval deadline l.before (l :: looks) last

/-- The instant after so many milliseconds, if it is on the clock. -/
def deadlineOf (now room : Nat) : Option Nat :=
  if now + room < Clock.end_ then some (now + room) else none

theorem deadlineOf_eq_some_iff {now room d : Nat} :
    deadlineOf now room = some d ↔ d = now + room ∧ d < Clock.end_ := by
  simp only [deadlineOf, Option.ite_none_right_eq_some, Option.some.injEq]
  omega

theorem deadlineOf_eq_none_iff {now room : Nat} :
    deadlineOf now room = none ↔ Clock.end_ ≤ now + room := by
  simp [deadlineOf]

theorem exists_look (serves : env.Serves) (query : Query) (r : Readiness) (w : World σ) :
    ∃ l : Look σ, l.before = w ∧ l.Made env query r := by
  obtain ⟨xs, u, shown, advances, -⟩ := (Served.structural serves).attempt query r w
  exact ⟨⟨w, xs, u, shown⟩, rfl, advances⟩

namespace Look.Made

variable {query : Query} {r : Readiness} {interval left : Nat} {deadline : Option Nat} {l : Look σ}

theorem le (made : l.Made env query r) : l.before.now ≤ l.after.now := Advances.le made

theorem ends (made : l.Made env query r) :
    Ends (Action.attempt query r).run l.exchanges (.ok l.shown) := Advances.ends made

/-- An element is shown exactly if the search finds it and it is ready. -/
theorem shown_iff (made : l.Made env query r) (e : Device.ElementId) :
    l.shown = some e ↔ l.exchanges = r.sight query e := by
  have ends := made.ends
  constructor
  · intro shown
    rw [shown] at ends
    exact sight_of_attempt ends
  · intro seen
    rw [seen] at ends
    have same : r.sight query e ++ [] = r.sight query e ++ [] := rfl
    simpa using (ends.unique (ends_attempt_sight query r e) same).2

theorem callsIn_eq (made : l.Made env query r) : callsIn l.exchanges = l.exchanges := by
  cases shown : l.shown with
  | some e =>
    rw [(made.shown_iff e).1 shown]
    cases r <;> rfl
  | none => exact (missed_of_attempt (shown ▸ made.ends)).callsIn_eq

/-- A look that no other one follows ends polling, unless it has shown nothing and there is no
deadline. -/
theorem settles (made : l.Made env query r)
    (settled : l.shown = none → Over interval deadline l.after.now) :
    ∃ aside q, callsIn aside = [] ∧
      Advances env l.before (pollTimes query r interval deadline (left + 1)).run
        (l.exchanges ++ aside) l.after q ∧
      ((deadline = none → l.shown ≠ none) → q = .done (.ok l.shown)) := by
  unfold Look.Made at made
  cases shown : l.shown with
  | some e =>
    rw [shown] at made
    exact ⟨[], _, rfl, made.bind (.here _ _), fun _ => rfl⟩
  | none =>
    rw [shown] at made
    cases deadline with
    | none => exact ⟨[], _, rfl, made.bind (.here _ _), fun ends => absurd rfl (ends rfl)⟩
    | some d =>
      exact ⟨[⟨.now, _⟩], _, rfl, made.bind (.now_bind (.ite_pos (settled shown) (.here _ _))),
        fun _ => rfl⟩

/-- Otherwise polling goes on after the gap. -/
theorem next (made : l.Made env query r) (shown : l.shown = none)
    (onClock : ∀ d, deadline = some d → d < Clock.end_)
    (goesOn : ¬ Over interval deadline l.after.now) {u : World σ} {xs : List Action.Exchange}
    {q : Routine Action.stage (Except Error (Option Device.ElementId))}
    (later : Advances env (l.after.reach (l.after.now + gap interval deadline l.after.now))
      (pollTimes query r interval deadline left).run xs u q) :
    ∃ aside, callsIn aside = [] ∧
      Advances env l.before (pollTimes query r interval deadline (left + 1)).run
        (l.exchanges ++ (aside ++ xs)) u q := by
  unfold Look.Made at made
  rw [shown] at made
  cases deadline with
  | none =>
    have fits : Clock.fits l.after.now (.ofMillis interval) := by
      simpa [Clock.fits, Over] using goesOn
    refine ⟨[⟨.pause _, ()⟩], rfl, made.bind (.pause_bind fits ?_)⟩
    simpa [gap] using later
  | some d =>
    have fits : Clock.fits l.after.now (.ofMillis (min interval (d - l.after.now))) := by
      have early := onClock d rfl
      simp only [Over] at goesOn
      simp only [Clock.fits, Span.millis_ofMillis, decide_eq_true_eq]
      omega
    refine ⟨[⟨.now, _⟩, ⟨.pause _, ()⟩], rfl,
      made.bind (.now_bind (.ite_neg goesOn (.pause_bind fits ?_)))⟩
    simpa [gap] using later

end Look.Made

/-- Polling until a deadline comes to an end, and without one it goes on until it finds an element
or the clock ends: in both cases before the attempts run out. -/
theorem exists_paced (serves : env.Serves) (query : Query) (r : Readiness) {interval left : Nat}
    {deadline : Option Nat} {w : World σ} (onClock : ∀ d, deadline = some d → d < Clock.end_)
    (room : deadline.getD Clock.end_ ≤ w.now + left * interval) :
    ∃ looks last xs q, Paced env query r interval deadline w looks last ∧ looks.length ≤ left ∧
      (last.shown = none → Over interval deadline last.after.now) ∧
      Advances env w (pollTimes query r interval deadline (left + 1)).run xs last.after q ∧
      callsIn xs = (looks ++ [last]).flatMap Look.exchanges ∧
      ((deadline = none → last.shown ≠ none) → q = .done (.ok last.shown)) := by
  induction left generalizing w with
  | zero =>
    -- The last attempt is begun at the deadline or later.
    obtain ⟨l, rfl, made⟩ := exists_look serves query r w
    have settled : Over interval deadline l.after.now := by
      have later := made.le
      cases deadline <;> simp only [Option.getD_none, Option.getD_some, Over] at room ⊢ <;> omega
    obtain ⟨aside, q, calm, advances, ends⟩ := made.settles fun _ => settled
    exact ⟨[], l, _, q, .last made, by simp, fun _ => settled, advances,
      by simp [calm, made.callsIn_eq], ends⟩
  | succ left ih =>
    obtain ⟨l, rfl, made⟩ := exists_look serves query r w
    by_cases settled : l.shown = none → Over interval deadline l.after.now
    · obtain ⟨aside, q, calm, advances, ends⟩ := made.settles settled
      exact ⟨[], l, _, q, .last made, by simp, settled, advances,
        by simp [calm, made.callsIn_eq], ends⟩
    · obtain ⟨shown, goesOn⟩ := Classical.not_imp.1 settled
      -- The gap is a whole interval, or leads to the deadline itself: one attempt less is enough.
      have closer : deadline.getD Clock.end_ ≤
          l.after.now + gap interval deadline l.after.now + left * interval := by
        have later := made.le
        rw [Nat.succ_mul] at room
        cases deadline <;> simp only [Option.getD_none, Option.getD_some, gap] at room ⊢ <;> omega
      obtain ⟨looks, last, xs, q, paced, length, late, later, calls, ends⟩ :=
        ih (w := l.after.reach (l.after.now + gap interval deadline l.after.now))
          (by simpa [World.reach] using closer)
      obtain ⟨aside, calm, advances⟩ := made.next shown onClock goesOn later
      exact ⟨l :: looks, last, _, q, .next made shown goesOn paced, by simpa using length, late,
        advances, by simp [calm, made.callsIn_eq, calls], ends⟩

/-! ## What the looks show, and when they begin -/

section Looks

variable {query : Query} {r : Readiness} {interval : Nat} {deadline : Option Nat} {w : World σ}
  {looks : List (Look σ)} {last l : Look σ}

theorem Paced.made (h : Paced env query r interval deadline w looks last) :
    ∀ l ∈ looks ++ [last], l.Made env query r := by
  induction h with
  | last made => simpa using made
  | next made _ _ _ ih => exact List.forall_mem_cons.2 ⟨made, ih⟩

/-- A look takes no time when no command does. -/
theorem Look.Made.after_now (made : l.Made env query r) (serves : env.Serves)
    (prompt : env.Prompt) : l.after.now = l.before.now := by
  obtain ⟨xs, u, shown, advances, swift⟩ := (Served.structural serves).attempt query r l.before
  have same := advances.run.symm.trans (Advances.run made)
  rw [← (Prod.mk.inj same).2]
  exact swift prompt

/-- When commands take no time, a look begins a whole number of intervals after the first one, or at
the deadline. These are the looks from the `j`th on. -/
theorem Paced.begins (h : Paced env query r interval deadline w looks last) (serves : env.Serves)
    (prompt : env.Prompt) {start room j : Nat} (set : deadline = deadlineOf start room)
    (now : w.now = start + min (j * interval) room) :
    ∀ k l, (looks ++ [last])[k]? = some l →
      l.before.now = start + min ((j + k) * interval) room := by
  induction h generalizing j with
  | @last l made =>
    intro k l' at_
    obtain ⟨rfl, rfl⟩ : k = 0 ∧ l = l' := by
      cases k <;> simp_all
    simpa using now
  | @next l last looks made _ goesOn _ ih =>
    intro k l' at_
    cases k with
    | zero =>
      obtain rfl : l = l' := by simpa using at_
      simpa using now
    | succ k =>
      have later : (l.after.reach (l.after.now + gap interval deadline l.after.now)).now =
          start + min ((j + 1) * interval) room := by
        have swift := made.after_now serves prompt
        rw [Nat.succ_mul]
        cases deadline with
        | none =>
          have endless := deadlineOf_eq_none_iff.1 set.symm
          simp only [Over, gap, World.reach] at goesOn ⊢
          omega
        | some d =>
          obtain ⟨rfl, -⟩ := deadlineOf_eq_some_iff.1 set.symm
          simp only [Over, gap, World.reach] at goesOn ⊢
          omega
      have begun := ih later k l' (by simpa using at_)
      rwa [Nat.add_right_comm, Nat.add_assoc] at begun

/-- When commands take no time and nothing is found, every interval until the deadline has its
look. -/
theorem Paced.length_ge (h : Paced env query r interval deadline w looks last)
    (serves : env.Serves) (prompt : env.Prompt) {room : Nat} (positive : 0 < interval)
    (set : deadline = deadlineOf w.now room) {d : Nat} (fits : deadline = some d)
    (late : Over interval deadline last.after.now) : room ⌈/⌉ interval ≤ looks.length := by
  have begun := h.begins serves prompt (j := 0) set (by simp) looks.length last (by simp)
  have swift := (h.made last (by simp)).after_now serves prompt
  obtain ⟨rfl, -⟩ := deadlineOf_eq_some_iff.1 (set.symm.trans fits)
  subst fits
  rw [ceilDiv_le_iff_le_mul positive]
  simp only [Over] at late
  rw [Nat.zero_add] at begun
  rw [Nat.mul_comm]
  omega

end Looks

/-! ## Polling -/

/-- Without a deadline polling does not end without an element. -/
theorem not_polls_none {query : Query} {r : Readiness} {xs : List Action.Exchange} :
    ¬ Polls query r none xs none := by
  intro h
  generalize ended : (none : Option Device.ElementId) = res at h
  induction h with
  | found => cases ended
  | late never => cases never
  | again _ _ _ ih => exact ih ended

/-- Polling begins with a look at the clock. -/
theorem advances_poll {s : Settings} {query : Query} {secs : Nat} {r : Readiness} {w u : World σ}
    {xs : List Action.Exchange} {q : Routine Action.stage (Except Error (Option Device.ElementId))}
    (h : Advances env w (pollTimes query r s.interval (deadlineOf w.now (secs * 1000))
      (attemptsWithin secs s.interval)).run xs u q) :
    Advances env w (poll s query secs r).run (⟨.now, w.now⟩ :: xs) u q := by
  refine .now_bind ?_
  simpa [deadlineOf, Clock.fits] using h

/-- The run of polling in a world, without a limit. -/
def polled (env : Environment σ) (s : Settings) (query : Query) (secs : Nat) (r : Readiness)
    (w : World σ) : Progress σ (Fate (Except Error (Option Device.ElementId))) × World σ :=
  (within none (poll s query secs r).run).run env none w

theorem polled_ne_none {s : Settings} {query : Query} {secs : Nat} {r : Readiness} {w : World σ}
    (endless : deadlineOf w.now (secs * 1000) = none) (v : World σ) :
    polled env s query secs r w ≠ (.finished (.answered (.ok none)), v) := by
  intro run
  have begins : Advances env w (poll s query secs r).run [⟨.now, w.now⟩] w
      (pollTimes query r s.interval (deadlineOf w.now (secs * 1000))
        (attemptsWithin secs s.interval)).run := advances_poll (.here w _)
  rw [polled, begins.run, endless] at run
  obtain ⟨xs, ended⟩ := ends_of_within (Course.ends_of_run run)
  exact not_polls_none (polls_of_pollTimes ended)

/-- These are the looks of polling for so many seconds, from a world on. -/
structure Scheduled (env : Environment σ) (s : Settings) (query : Query) (secs : Nat)
    (r : Readiness) (w : World σ) (looks : List (Look σ)) (last : Look σ) : Prop where
  paced : Paced env query r s.interval (deadlineOf w.now (secs * 1000)) w looks last
  shown_iff : ∀ l ∈ looks ++ [last], ∀ e, l.shown = some e ↔ l.exchanges = r.sight query e
  /-- The commands of polling are those of the looks. More can only follow when the clock is over
  before the deadline. -/
  commands : ∃ xs rest, callsIn xs = (looks ++ [last]).flatMap Look.exchanges ∧
    (within none (poll s query secs r).run).trace env none w = xs.map heard ++ rest ∧
    (rest ≠ [] → deadlineOf w.now (secs * 1000) = none ∧ last.shown = none)
  /-- Polling ends with the look that shows the element. -/
  found : ∀ e, last.shown = some e →
    polled env s query secs r w = (.finished (.answered (.ok (some e))), last.after)
  /-- With a deadline polling ends with the last look. One that shows nothing has ended at the
  deadline or later. -/
  ends : ∀ d, deadlineOf w.now (secs * 1000) = some d →
    polled env s query secs r w = (.finished (.answered (.ok last.shown)), last.after) ∧
      (last.shown = none → d ≤ last.after.now)
  /-- Without one it never ends with nothing, and goes on as long as the clock lasts. -/
  endless : deadlineOf w.now (secs * 1000) = none →
    (∀ v, polled env s query secs r w ≠ (.finished (.answered (.ok none)), v)) ∧
      (last.shown = none → Clock.end_ ≤ last.after.now + s.interval)
  /-- Before the last look there is at most one for each interval, the last one being cut short. -/
  bounded : looks.length ≤ secs * 1000 ⌈/⌉ s.interval
  once : secs = 0 → looks = []
  /-- When commands take no time, the looks are at every interval and at the deadline. -/
  regular : env.Prompt →
    (∀ k l, (looks ++ [last])[k]? = some l →
      l.before.now = w.now + min (k * s.interval) (secs * 1000)) ∧
    (∀ d, deadlineOf w.now (secs * 1000) = some d → last.shown = none →
      looks.length = secs * 1000 ⌈/⌉ s.interval)

/-- The attempts within a number of seconds reach the deadline or the end of the clock. -/
theorem attempts_suffice (s : Settings) (now secs : Nat) :
    (deadlineOf now (secs * 1000)).getD Clock.end_ ≤
      now + secs * 1000 ⌈/⌉ s.interval * s.interval := by
  have reaches : secs * 1000 ≤ secs * 1000 ⌈/⌉ s.interval * s.interval := by
    rw [Nat.mul_comm _ s.interval]
    exact (ceilDiv_le_iff_le_mul s.interval_pos).1 (Nat.le_refl _)
  unfold deadlineOf
  split
  · exact Nat.add_le_add_left reaches _
  · rw [Option.getD_none]
    omega

theorem exists_scheduled (serves : env.Serves) (s : Settings) (query : Query) (secs : Nat)
    (r : Readiness) (w : World σ) : ∃ looks last, Scheduled env s query secs r w looks last := by
  obtain ⟨looks, last, xs, q, paced, length, late, advances, calls, halts⟩ :=
    exists_paced serves query r (fun d set => (deadlineOf_eq_some_iff.1 set).2)
      (attempts_suffice s w.now secs)
  have polls := advances_poll advances
  have finished : (deadlineOf w.now (secs * 1000) = none → last.shown ≠ none) →
      polled env s query secs r w = (.finished (.answered (.ok last.shown)), last.after) := by
    intro ends
    obtain rfl := halts ends
    exact polls.run
  refine ⟨looks, last, ?_⟩
  exact {
    paced
    shown_iff l mem := (paced.made l mem).shown_iff
    commands := by
      refine ⟨⟨.now, w.now⟩ :: xs, _, calls, polls.trace, fun more => ?_⟩
      by_contra ends
      obtain rfl := halts fun set shown => ends ⟨set, shown⟩
      exact more rfl
    found e shown := by
      rw [finished (by simp [shown]), shown]
    ends d set := by
      rw [set] at finished late
      exact ⟨finished (by simp), late⟩
    endless set := by
      refine ⟨polled_ne_none set, ?_⟩
      rwa [set] at late
    bounded := length
    once := by
      rintro rfl
      simpa using length
    regular prompt := by
      refine ⟨fun k l at_ => ?_, fun d set shown => ?_⟩
      · simpa using paced.begins serves prompt (j := 0) rfl (by simp) k l at_
      · exact Nat.le_antisymm length
          (paced.length_ge serves prompt s.interval_pos rfl set (late shown)) }

/-- An action about an element polls for its timeout, which counts as zero when it is negative, with
an interval that is never zero. -/
theorem polling_scheduled (serves : env.Serves) (s : Settings) (query : Query) (ps : Params)
    (r : Readiness) (w : World σ) :
    s.interval = max s.pollInterval 1 ∧ (timeoutOf ps : Int) = max (ps.int "timeout") 0 ∧
      ∃ looks last, Scheduled env s query (timeoutOf ps) r w looks last :=
  ⟨rfl, Int.toNat_eq_max _, exists_scheduled serves s query (timeoutOf ps) r w⟩

/-- Answers of a device on which a button turns up after 700 milliseconds. -/
def latecomer (now : Nat) : (c : Device.Command) → c.Answer
  | .find _ => if now < 700 then none else some "b"
  | .displayed _ | .enabled _ => true
  | .click _ | .typeKeys .. | .activate _ | .pressKey _ => ()
  | .text _ | .currentPackage => ""
  | .screenshot => default

/-- The device takes 30 milliseconds for each command. -/
def sluggish : Environment Unit where
  command now c s :=
    { begun := s, takes := some 30, finish := fun s => (.ok (.ok (latecomer now c)), s) }
  check _ _ _ s := { begun := s, finish := fun s => (.ok (.ok ()), s) }
  connect _ _ s := { begun := s, finish := fun s => (.ok (.ok ""), s) }
  quit _ s := { begun := s, finish := fun s => (.ok (), s) }

def Fate.answer? : Fate α → Option α
  | .answered a => some a
  | .panicked _ | .cut | .crashed _ => none

theorem polling_scheduled_latecomer : ∃ (looks : List (Look Unit)) (last : Look Unit),
    sluggish.Serves ∧
    Scheduled sluggish {} ⟨"id", "buy"⟩ 1 .clickable { outside := () } looks last ∧
    looks.length ≤ 2 ∧ last.shown = some "b" ∧ last.after.now = 1090 := by
  have serves : sluggish.Serves := fun now c s => ⟨⟨30, rfl⟩, fun s' => ⟨latecomer now c, rfl⟩⟩
  have fates : (polled sluggish {} ⟨"id", "buy"⟩ 1 .clickable { outside := () }).1.result?.bind
      Fate.answer? = some (.ok (some "b")) ∧
      (polled sluggish {} ⟨"id", "buy"⟩ 1 .clickable { outside := () }).2.now = 1090 := by
    decide +kernel
  have timeout : timeoutOf { entries := [("timeout", .int 1)] } = 1 := by decide
  obtain ⟨-, -, looks, last, scheduled⟩ := polling_scheduled serves {} ⟨"id", "buy"⟩
    { entries := [("timeout", .int 1)] } .clickable { outside := () }
  rw [timeout] at scheduled
  obtain ⟨ends, -⟩ := scheduled.ends 1000 (by decide)
  rw [ends] at fates
  obtain ⟨found, now⟩ := fates
  refine ⟨looks, last, serves, scheduled, scheduled.bounded, ?_, now⟩
  simpa [Progress.result?, Fate.answer?] using found

end UiRunner.Run
