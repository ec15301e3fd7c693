import UiRunner.Proofs.Run.Interpretation
import UiRunner.Proofs.Run.Journal

/-!
# Tours

The steps of a case are executed one after the other in a world. Every executed step is a turn
between two worlds, and a tour is what the turns of a case come to. The interpreter's run in a
world is its tour: each turn leaves an entry, and the log is closed as the tour halts.
-/
namespace UiRunner.Run

open Routine

variable {σ : Type}

/-- A step that was executed: its place, its result, and the worlds before and after it. -/
structure Turn (σ : Type) where
  place : Nat
  step : Step
  result : StepResult
  before : World σ
  after : World σ

/-- The entry that a turn leaves. -/
def Turn.entry (t : Turn σ) : Entry :=
  t.result.entry t.place t.step t.before.now t.after.now

/-- The steps that are executed, why no further one is, and the world then. Without a reason a
step was begun that never ends. -/
structure Tour (σ : Type) where
  turns : List (Turn σ)
  halt : Option Halt
  world : World σ

def Tour.entries (t : Tour σ) : List Entry := t.turns.map Turn.entry

/-- What comes of a tour after some turns. -/
def Tour.following (ts : List (Turn σ)) (t : Tour σ) : Tour σ := { t with turns := ts ++ t.turns }

@[simp] theorem Tour.following_turns (ts : List (Turn σ)) (t : Tour σ) :
    (t.following ts).turns = ts ++ t.turns := rfl

@[simp] theorem Tour.following_halt (ts : List (Turn σ)) (t : Tour σ) :
    (t.following ts).halt = t.halt := rfl

@[simp] theorem Tour.following_world (ts : List (Turn σ)) (t : Tour σ) :
    (t.following ts).world = t.world := rfl

namespace Policy

/-- Executes steps, counted from `k` on, in a world. -/
def tour (p : Policy) (env : Environment σ) (k : Nat) : List Step → World σ → Tour σ
  | [], w => ⟨[], some .finished, w⟩
  | s :: rest, w =>
    if w.isCancelled then ⟨[], some .cancelled, w⟩
    else
      match (p.execute s).run env none w with
      | (.waiting _, v) => ⟨[], none, v⟩
      | (.finished (.error q), v) => ⟨[], some (.crashed q), v⟩
      | (.finished (.ok r), v) =>
        if p.stops r then ⟨[⟨k, s, r, w, v⟩], some .stopped, v⟩
        else (p.tour env (k + 1) rest v).following [⟨k, s, r, w, v⟩]

end Policy

/-! ## The run of the interpreter -/

theorem World.reach_self (w : World σ) : w.reach w.now = w := by
  simp [reach]

theorem Course.run_now_bind {β : Type} (env : Environment σ) (f : Nat → Course β) (w : World σ) :
    (Course.now >>= f).run env none w = (f w.now).run env none w := by
  change Course.run env none (.ask .now f) w = _
  simp [run, World.begin, World.immediate, Underway.comesBy, World.reach_self]

/-- What time it is can still be asked at the last instant. -/
theorem Course.run_now_bind_of_le {β : Type} (env : Environment σ) (f : Nat → Course β)
    {w : World σ} {c : Nat} (le : w.now ≤ c) :
    (Course.now >>= f).run env (some c) w = (f w.now).run env (some c) w := by
  change Course.run env (some c) (.ask .now f) w = _
  simp [run, World.begin, World.immediate, Underway.comesBy, World.reach_self, le]

theorem Course.trace_now_bind {β : Type} (env : Environment σ) (f : Nat → Course β)
    (w : World σ) :
    (Course.now >>= f).trace env none w = ⟨.now, w.now⟩ :: (f w.now).trace env none w := by
  change Course.trace env none (.ask .now f) w = _
  simp [trace, World.begin, World.immediate, Underway.comesBy, World.reach_self]

theorem Course.run_isCancelled_bind {β : Type} (env : Environment σ) (f : Bool → Course β)
    (w : World σ) :
    (Course.isCancelled >>= f).run env none w = (f w.isCancelled).run env none w := by
  change Course.run env none (.ask .cancelled f) w = _
  simp [run, World.begin, World.immediate, Underway.comesBy, World.reach_self]

theorem Course.run_slot_bind {β : Type} (env : Environment σ) (op : Session.Slot.Op)
    (f : op.Answer → Course β) (w : World σ) :
    (ask (.slot op) >>= f).run env none w =
      (f (w.slot.apply op).1).run env none { w with slot := (w.slot.apply op).2 } := by
  change Course.run env none (.ask (.slot op) f) w = _
  simp [run, World.begin, World.immediate, Underway.comesBy, World.reach_self]

namespace Policy

variable {p : Policy} {env : Environment σ} {k : Nat} {s : Step} {steps rest : List Step}
  {w v : World σ}

/-- The interpreter's run is the tour of its steps. -/
theorem run_interpretFrom (p : Policy) (env : Environment σ) (k : Nat) (steps : List Step)
    (log : Log) (w : World σ) :
    ((p.interpretFrom k steps log).run env none w).2 = (p.tour env k steps w).world ∧
      ((p.interpretFrom k steps log).run env none w).1.result? =
        (p.tour env k steps w).halt.map fun h =>
          (h.close { log with entries := log.entries ++ (p.tour env k steps w).entries },
            h.panic?) := by
  induction steps generalizing k log w with
  | nil => simp [interpretFrom, tour, Course.run, Progress.result?, Halt.close, Halt.panic?,
      Tour.entries]
  | cons s rest ih =>
    rw [interpretFrom, Course.run_isCancelled_bind, tour]
    cases cancelled : w.isCancelled with
    | true => simp [Course.run, Progress.result?, Halt.close, Halt.panic?, Tour.entries]
    | false =>
      simp only [Bool.false_eq_true, ite_false]
      rw [Course.run_now_bind, Course.run_bind]
      rcases (p.execute s).run env none w with ⟨(q | r) | pending, v⟩
      · simp [Course.run, Progress.result?, Halt.close, Halt.panic?, Tour.entries]
      · dsimp only
        rw [Course.run_now_bind]
        cases p.stops r with
        | true => exact ⟨rfl, rfl⟩
        | false =>
          obtain ⟨world, result⟩ := ih (k + 1) (log.push (Turn.entry ⟨k, s, r, w, v⟩)) v
          refine ⟨world, result.trans ?_⟩
          simp [Tour.entries, Log.push]
      · simp [Progress.result?]

/-- What the interpreter comes to on a tour that halted. -/
theorem run_interpret_of_tour {ts : List (Turn σ)} {h : Halt}
    (tour : p.tour env 1 steps w = ⟨ts, some h, v⟩) : (p.interpret steps).run env none w =
      (.finished (h.close { entries := ts.map Turn.entry }, h.panic?), v) := by
  obtain ⟨world, result⟩ := p.run_interpretFrom env 1 steps {} w
  rw [tour] at world result
  exact Prod.ext (Progress.result?_eq_some_iff.1 result) world

theorem entries_of_run_interpret {log : Log} {panic : Option Panic}
    (run : (p.interpret steps).run env none w = (.finished (log, panic), v)) :
    log.entries = (p.tour env 1 steps w).entries := by
  obtain ⟨-, result⟩ := p.run_interpretFrom env 1 steps {} w
  rw [← interpret, run] at result
  obtain ⟨h, -, closed⟩ := Option.map_eq_some_iff.1 result.symm
  simp [← (Prod.mk.inj closed).1]

theorem tour_leads (p : Policy) (env : Environment σ) (k : Nat) (steps : List Step)
    (w : World σ) : ∃ xs, w.Leads (p.tour env k steps w).world xs := by
  rw [← (p.run_interpretFrom env k steps {} w).1]
  exact Course.run_leads ..

section Turns

variable {r : StepResult}

theorem tour_of_cancelled (cancelled : w.isCancelled = true) :
    p.tour env k (s :: rest) w = ⟨[], some .cancelled, w⟩ := by
  simp [tour, cancelled]

theorem tour_of_crash {q : Panic} (live : w.isCancelled = false)
    (run : (p.execute s).run env none w = (.finished (.error q), v)) :
    p.tour env k (s :: rest) w = ⟨[], some (.crashed q), v⟩ := by
  simp [tour, live, run]

theorem tour_of_stops (live : w.isCancelled = false)
    (run : (p.execute s).run env none w = (.finished (.ok r), v)) (stops : p.stops r = true) :
    p.tour env k (s :: rest) w = ⟨[⟨k, s, r, w, v⟩], some .stopped, v⟩ := by
  simp [tour, live, run, stops]

theorem tour_of_goesOn (live : w.isCancelled = false)
    (run : (p.execute s).run env none w = (.finished (.ok r), v)) (goesOn : p.stops r = false) :
    p.tour env k (s :: rest) w = (p.tour env (k + 1) rest v).following [⟨k, s, r, w, v⟩] := by
  simp [tour, live, run, goesOn]

theorem tour_of_waiting {pending : Pending σ (Except Panic StepResult)}
    (live : w.isCancelled = false)
    (run : (p.execute s).run env none w = (.waiting pending, v)) :
    p.tour env k (s :: rest) w = ⟨[], none, v⟩ := by
  simp [tour, live, run]

theorem tour_of_isCancelled (p : Policy) (env : Environment σ) (k : Nat) (steps : List Step)
    (cancelled : w.isCancelled = true) :
    (p.tour env k steps w).turns = [] ∧ (p.tour env k steps w).world = w := by
  cases steps with
  | nil => exact ⟨rfl, rfl⟩
  | cons s rest => simp [tour_of_cancelled cancelled]

/-- Once the run is cancelled no further step is taken. -/
theorem tour_ends_of_isCancelled {i : Nat} {t : Turn σ}
    (at_ : (p.tour env k steps w).turns[i]? = some t) (cancelled : t.after.isCancelled = true) :
    (p.tour env k steps w).turns.length = i + 1 ∧ (p.tour env k steps w).world = t.after := by
  fun_induction tour p env k steps w generalizing i with
  | case1 | case2 | case3 | case4 => simp at at_
  | case5 k s rest w _ r v =>
    cases i with
    | zero =>
      obtain rfl := Option.some.inj at_
      exact ⟨rfl, rfl⟩
    | succ i => simp at at_
  | case6 k s rest w _ r v _ _ ih =>
    cases i with
    | zero =>
      obtain rfl := Option.some.inj at_
      obtain ⟨none, here⟩ := p.tour_of_isCancelled env (k + 1) rest cancelled
      simp [none, here]
    | succ i =>
      obtain ⟨length, world⟩ := ih at_
      exact ⟨congrArg (· + 1) length, world⟩

/-- A tour that was not halted before has taken every step. -/
theorem length_of_finished (finished : (p.tour env k steps w).halt = some .finished) :
    (p.tour env k steps w).turns.length = steps.length := by
  fun_induction tour p env k steps w with
  | case1 => rfl
  | case2 | case3 | case4 | case5 => cases finished
  | case6 k s rest w _ r v _ _ ih => exact congrArg (· + 1) (ih finished)

/-- A tour stops at the step after which no other one is executed. -/
theorem stops_of_stopped (stopped : (p.tour env k steps w).halt = some .stopped) :
    ∃ t, (p.tour env k steps w).turns.getLast? = some t ∧ p.stops t.result = true := by
  fun_induction tour p env k steps w with
  | case1 | case2 | case3 | case4 => cases stopped
  | case5 k s rest w _ r v _ stops => exact ⟨_, rfl, stops⟩
  | case6 k s rest w _ r v _ _ ih =>
    obtain ⟨t, last, stops⟩ := ih stopped
    exact ⟨t, by simp [List.getLast?_cons, last], stops⟩

/-- A tour goes on from the world in which its first step ends. -/
theorem tour_leads_of_finished (k : Nat) (rest : List Step) {res : Except Panic StepResult}
    (live : w.isCancelled = false)
    (run : (p.execute s).run env none w = (.finished res, v)) :
    ∃ xs, v.Leads (p.tour env k (s :: rest) w).world xs := by
  cases res with
  | error q =>
    rw [tour_of_crash live run]
    exact ⟨[], .refl v⟩
  | ok r =>
    cases stops : p.stops r with
    | true =>
      rw [tour_of_stops live run stops]
      exact ⟨[], .refl v⟩
    | false =>
      rw [tour_of_goesOn live run stops]
      exact p.tour_leads env (k + 1) rest v

/-- A tour leads through the world in which any of its turns ends. -/
theorem leads_of_turn {i : Nat} {t : Turn σ}
    (at_ : (p.tour env k steps w).turns[i]? = some t) :
    (∃ xs, w.Leads t.after xs) ∧ ∃ ys, t.after.Leads (p.tour env k steps w).world ys := by
  fun_induction tour p env k steps w generalizing i with
  | case1 | case2 | case3 | case4 => simp at at_
  | case5 k s rest w live r v run =>
    cases i with
    | zero =>
      obtain rfl := Option.some.inj at_
      have during := Course.run_leads env none (p.execute s) w
      rw [run] at during
      exact ⟨during, [], .refl v⟩
    | succ i => simp at at_
  | case6 k s rest w live r v run _ ih =>
    obtain ⟨xs, during⟩ := Course.run_leads env none (p.execute s) w
    rw [run] at during
    cases i with
    | zero =>
      obtain rfl := Option.some.inj at_
      exact ⟨⟨xs, during⟩, p.tour_leads env (k + 1) rest v⟩
    | succ i =>
      obtain ⟨⟨ys, before⟩, after⟩ := ih at_
      exact ⟨⟨_, during.trans before⟩, after⟩

/-- After these turns the rest of the steps is left, in this world. -/
inductive Past (p : Policy) (env : Environment σ) :
    Nat → List Step → World σ → List (Turn σ) → List Step → World σ → Prop where
  | here (k : Nat) (steps : List Step) (w : World σ) : Past p env k steps w [] steps w
  | turn {k : Nat} {s : Step} {steps rest : List Step} {w v u : World σ} {r : StepResult}
      {ts : List (Turn σ)} :
      w.isCancelled = false → (p.execute s).run env none w = (.finished (.ok r), v) →
      p.stops r = false → Past p env (k + 1) steps v ts rest u →
      Past p env k (s :: steps) w (⟨k, s, r, w, v⟩ :: ts) rest u

namespace Past

variable {ts : List (Turn σ)}

theorem tour_eq (h : p.Past env k steps w ts rest v) :
    p.tour env k steps w = (p.tour env (k + ts.length) rest v).following ts := by
  induction h with
  | here => rfl
  | turn live run goesOn _ ih =>
    rw [tour_of_goesOn live run goesOn, ih]
    simp [Tour.following, Nat.add_assoc, Nat.add_comm 1]

/-- The turns took the steps in order. -/
theorem steps_eq (h : p.Past env k steps w ts rest v) : steps = ts.map (·.step) ++ rest := by
  induction h with
  | here => rfl
  | turn _ _ _ _ ih => simp [← ih]

/-- None of the turns was one after which no step is executed. -/
theorem not_stops (h : p.Past env k steps w ts rest v) : ∀ t ∈ ts, p.stops t.result = false := by
  induction h with
  | here => simp
  | turn _ _ goesOn _ ih => exact List.forall_mem_cons.2 ⟨goesOn, ih⟩

theorem leads (h : p.Past env k steps w ts rest v) : ∃ xs, w.Leads v xs := by
  induction h with
  | here => exact ⟨[], .refl _⟩
  | @turn _ s _ _ w _ _ _ _ _ run _ _ ih =>
    obtain ⟨ys, after⟩ := ih
    obtain ⟨xs, during⟩ := Course.run_leads env none (p.execute s) w
    rw [run] at during
    exact ⟨_, during.trans after⟩

end Past

end Turns

end Policy

end UiRunner.Run
