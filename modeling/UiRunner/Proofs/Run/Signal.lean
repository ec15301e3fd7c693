import UiRunner.Proofs.Run.Release
import UiRunner.Proofs.Run.Tour

/-!
# Cancelling a run

A run can be told to stop at any time: by an answer, or from an instant on. Only the interpreter
looks at this, before each step. So the step that is under way goes on to its end as in the run
that nobody stops, no step is begun after it, and the session is released as ever.
-/
namespace UiRunner.Run

open Routine

variable {σ α β : Type}

/-! ## Without a signal -/

/-- The reaction without its signal. -/
def Reaction.unsignalled (r : Reaction σ α) : Reaction σ α := { r with cancels := false }

/-- The same outside, which tells no run to stop. -/
def Environment.unsignalled (env : Environment σ) : Environment σ where
  command now c s := (env.command now c s).unsignalled
  check now c config s := (env.check now c config s).unsignalled
  connect now config s := (env.connect now config s).unsignalled
  quit now s := (env.quit now s).unsignalled
  storage := env.storage
  storing := env.storing

/-- The same world, in which the run is not told to stop. -/
def World.unsignalled (w : World σ) : World σ := { w with cancelAt := none }

@[simp] theorem World.signal_unsignalled (w : World σ) : w.signal.unsignalled = w.unsignalled := by
  unfold signal
  split <;> rfl

/-- A request under way, and the same one without a signal. -/
structure Underway.Matches (u u' : Underway σ α) : Prop where
  world : u'.world = u.world.unsignalled
  due : u'.due = u.due
  finish : ∀ v, u'.finish v.unsignalled = ((u.finish v).1, (u.finish v).2.unsignalled)
  atOnce : u'.atOnce = u.atOnce
  onGiveUp : u'.onGiveUp = u.onGiveUp

namespace Underway.Matches

theorem call (w : World σ) (c : Call) (r : Reaction σ α) :
    (w.call c r).Matches (w.unsignalled.call c r.unsignalled) where
  world := rfl
  due := rfl
  finish v := by
    simp only [World.call, Reaction.unsignalled, Bool.false_eq_true, ite_false]
    split
    · simp only [World.signal_unsignalled]
      rfl
    · rfl
  atOnce := rfl
  onGiveUp := rfl

theorem immediate (w : World σ) {answer : World σ → α × World σ}
    (same : ∀ v, answer v.unsignalled = ((answer v).1, (answer v).2.unsignalled)) :
    (w.immediate answer).Matches (w.unsignalled.immediate answer) :=
  ⟨rfl, rfl, same, rfl, rfl⟩

theorem pause (w : World σ) (d : Span) : (w.pause d).Matches (w.unsignalled.pause d) :=
  ⟨rfl, rfl, fun _ => rfl, rfl, rfl⟩

theorem map {u u' : Underway σ α} (h : u.Matches u') (f : α → β) :
    (u.map f).Matches (u'.map f) where
  world := h.world
  due := h.due
  finish v := by simp only [Underway.map, h.finish v]
  atOnce := h.atOnce
  onGiveUp := h.onGiveUp

theorem cutAt {u u' : Underway σ (Fate α)} (h : u.Matches u') (cutoff : Option Nat) :
    (u.cutAt cutoff).Matches (u'.cutAt cutoff) := by
  cases cutoff with
  | none => exact h
  | some c =>
    have inTime : u'.isInTime c = u.isInTime c := by
      rw [isInTime, isInTime, h.due, h.atOnce, h.world]
      rfl
    simp only [Underway.cutAt, inTime]
    split
    · exact h
    · exact ⟨h.world, rfl, fun v => by rw [h.onGiveUp], rfl, rfl⟩

end Underway.Matches

theorem World.await_matches (env : Environment σ) (w : World σ) (r : Action.Request) :
    (w.await env r).Matches (w.unsignalled.await env.unsignalled r) := by
  cases r with
  | command c => exact (Underway.Matches.call w (.command c) _).map _
  | pause d => exact (Underway.Matches.pause w d).map Fate.answered
  | now => exact .immediate w fun _ => rfl
  | makeDirectories | write | forever => exact ⟨rfl, rfl, fun _ => rfl, rfl, rfl⟩

theorem World.act_matches (env : Environment σ) (w : World σ) (cutoff : Option Nat)
    (r : Action.Request) :
    (w.act env cutoff r).Matches (w.unsignalled.act env.unsignalled cutoff r) := by
  unfold act
  split
  · exact await_matches env w .now
  · exact (await_matches env w _).cutAt cutoff

/-- Whoever does not look for a signal does not notice one. -/
theorem World.begin_matches (env : Environment σ) (w : World σ) {r : Request}
    (other : r ≠ .cancelled) : (w.begin env r).Matches (w.unsignalled.begin env.unsignalled r) := by
  cases r with
  | act r cutoff => exact act_matches env w cutoff r
  | check c config => exact .call w (.check c) _
  | connect config => exact .call w (.connect config) _
  | quit => exact .call w .quit _
  | settle d => exact .pause w d
  | now | slot => exact .immediate w fun _ => rfl
  | cancelled => exact absurd rfl other

/-- A course that does not look for a signal runs as without one. -/
theorem Course.run_unsignalled {c : Course α} (asks : Asks (fun r : Request => r ≠ .cancelled) c)
    (env : Environment σ) (limit : Option Nat) (w : World σ) :
    (c.run env.unsignalled limit w.unsignalled).2 = (c.run env limit w).2.unsignalled ∧
      (c.run env.unsignalled limit w.unsignalled).1.result? = (c.run env limit w).1.result? := by
  induction c generalizing w with
  | done a => exact ⟨rfl, rfl⟩
  | ask r next ih =>
    have same := World.begin_matches env w asks.1
    have reached : (w.begin env r).world.unsignalled.reach ((w.begin env r).due.getD 0) =
        ((w.begin env r).world.reach ((w.begin env r).due.getD 0)).unsignalled := rfl
    simp only [run, same.due, same.world, reached, same.finish]
    split
    · exact ih _ (asks.2 _) _
    · exact ⟨rfl, rfl⟩

theorem Course.run_unsignalled_of_finished {c : Course α}
    (asks : Asks (fun r : Request => r ≠ .cancelled) c) {env : Environment σ} {limit : Option Nat}
    {w v : World σ} {a : α} (run : c.run env limit w = (.finished a, v)) :
    c.run env.unsignalled limit w.unsignalled = (.finished a, v.unsignalled) := by
  obtain ⟨world, result⟩ := Course.run_unsignalled asks env limit w
  rw [run] at world result
  exact Prod.ext (Progress.result?_eq_some_iff.1 result) world

theorem Course.run_unsignalled_of_waiting {c : Course α}
    (asks : Asks (fun r : Request => r ≠ .cancelled) c) {env : Environment σ} {limit : Option Nat}
    {w v : World σ} {pending : Pending σ α} (run : c.run env limit w = (.waiting pending, v)) :
    ∃ pending', c.run env.unsignalled limit w.unsignalled = (.waiting pending', v.unsignalled) := by
  obtain ⟨world, result⟩ := Course.run_unsignalled asks env limit w
  rw [run] at world result
  obtain ⟨progress, v', run'⟩ : ∃ progress v',
      c.run env.unsignalled limit w.unsignalled = (progress, v') := ⟨_, _, rfl⟩
  rw [run'] at world result ⊢
  cases progress with
  | finished a => cases result
  | waiting pending' => exact ⟨pending', Prod.ext rfl world⟩

/-! ## Tours -/

def Turn.unsignalled (t : Turn σ) : Turn σ :=
  { t with before := t.before.unsignalled, after := t.after.unsignalled }

theorem Turn.map_unsignalled_entry (ts : List (Turn σ)) :
    (ts.map Turn.unsignalled).map Turn.entry = ts.map Turn.entry := by
  rw [List.map_map]
  rfl

def Tour.unsignalled (t : Tour σ) : Tour σ :=
  ⟨t.turns.map Turn.unsignalled, t.halt, t.world.unsignalled⟩

namespace Policy

variable {p : Policy} {s : Step}

/-- Executing a step is not looking for a signal. -/
theorem execute_asks_unsignalled (p : Policy) (s : Step) :
    Asks (fun r : Request => r ≠ .cancelled) (p.execute s) :=
  execute_asks_of nofun (fun _ _ => nofun) p s

/-- A tour goes as without a signal, or it breaks off before a step that it would have taken. -/
theorem tour_unsignalled (p : Policy) (env : Environment σ) (k : Nat) (steps : List Step)
    (w : World σ) :
    ((p.tour env k steps w).halt ≠ some .cancelled ∧
      p.tour env.unsignalled k steps w.unsignalled = (p.tour env k steps w).unsignalled) ∨
    ((p.tour env k steps w).halt = some .cancelled ∧ (p.tour env k steps w).world.isCancelled ∧
      ∃ s rest, p.Past env.unsignalled k steps w.unsignalled
        ((p.tour env k steps w).turns.map Turn.unsignalled) (s :: rest)
        (p.tour env k steps w).world.unsignalled) := by
  fun_induction tour p env k steps w with
  | case1 k w => exact .inl ⟨by simp, rfl⟩
  | case2 k s rest w cancelled => exact .inr ⟨rfl, cancelled, s, rest, .here ..⟩
  | case3 k s rest w live pending v run =>
    obtain ⟨pending', run'⟩ := Course.run_unsignalled_of_waiting (p.execute_asks_unsignalled s) run
    exact .inl ⟨by simp, tour_of_waiting rfl run'⟩
  | case4 k s rest w live q v run =>
    have run' := Course.run_unsignalled_of_finished (p.execute_asks_unsignalled s) run
    exact .inl ⟨by simp, tour_of_crash rfl run'⟩
  | case5 k s rest w live r v run stops =>
    have run' := Course.run_unsignalled_of_finished (p.execute_asks_unsignalled s) run
    exact .inl ⟨by simp, tour_of_stops rfl run' stops⟩
  | case6 k s rest w live r v run stops ih =>
    have run' := Course.run_unsignalled_of_finished (p.execute_asks_unsignalled s) run
    have goesOn : p.stops r = false := by simpa using stops
    obtain ⟨halt, same⟩ | ⟨halt, cancelled, s', rest', past⟩ := ih
    · refine .inl ⟨halt, (tour_of_goesOn rfl run' goesOn).trans ?_⟩
      rw [same]
      rfl
    · exact .inr ⟨halt, cancelled, s', rest', .turn rfl run' goesOn past⟩

/-- The turns that were taken are the first ones of the run without a signal. -/
theorem turns_unsignalled (p : Policy) (env : Environment σ) (k : Nat) (steps : List Step)
    (w : World σ) : (p.tour env k steps w).turns.map Turn.unsignalled =
      (p.tour env.unsignalled k steps w.unsignalled).turns.take
        (p.tour env k steps w).turns.length := by
  obtain ⟨-, same⟩ | ⟨-, -, s, rest, past⟩ := p.tour_unsignalled env k steps w
  · rw [same, Tour.unsignalled, List.take_of_length_le (by simp)]
  · simp [past.tour_eq]

theorem entries_unsignalled (p : Policy) (env : Environment σ) (k : Nat) (steps : List Step)
    (w : World σ) : (p.tour env k steps w).entries =
      (p.tour env.unsignalled k steps w.unsignalled).entries.take
        (p.tour env k steps w).turns.length := by
  rw [Tour.entries, ← Turn.map_unsignalled_entry, p.turns_unsignalled env k steps w, List.map_take]
  rfl

theorem length_le_unsignalled (p : Policy) (env : Environment σ) (k : Nat) (steps : List Step)
    (w : World σ) : (p.tour env k steps w).turns.length ≤
      (p.tour env.unsignalled k steps w.unsignalled).turns.length := by
  have length := congrArg List.length (p.turns_unsignalled env k steps w)
  simp only [List.length_map, List.length_take] at length
  omega

end Policy

/-! ## Runs of a case -/

theorem Request.call?_eq_quit_iff {r : Request} : r.call? = some .quit ↔ r = .quit := by
  cases r with
  | act q cutoff => cases q <;> simp [call?]
  | check | connect | settle | quit | now | cancelled | slot => simp [call?]

namespace Orchestrator

variable {o : Orchestrator} {case : TestCase} {env : Environment σ} {w v u : World σ}
  {id : SessionId}

/-- Acquiring a session is not looking for a signal. -/
theorem acquire_asks_unsignalled (o : Orchestrator) :
    Asks (fun r : Request => r ≠ .cancelled) (o.manager.acquire o.config) :=
  Manager.acquire_asks (by rintro r setup rfl; cases setup) (by simp) ..

/-- A run that gets no session does not notice a signal. -/
theorem run_unsignalled_of_refused {r : Attempt SessionId} {b : Except Panic Report}
    (refused : ∀ id, r ≠ .ok (.ok id))
    (acquired : (o.manager.acquire o.config).run env none w = (.finished r, v))
    (run : (o.execute case).run env none w = (.finished b, u)) :
    (o.execute case).run env.unsignalled none w.unsignalled = (.finished b, u.unsignalled) := by
  rw [execute, Course.run_now_bind] at run ⊢
  obtain ⟨a, v', acquired', rest⟩ := Course.run_bind_finished_iff.1 run
  obtain ⟨⟨⟩, rfl⟩ := Prod.mk.inj (acquired.symm.trans acquired')
  have alike := Course.run_unsignalled_of_finished (acquire_asks_unsignalled o) acquired
  refine Course.run_bind_finished_iff.2 ⟨_, _, alike,
    Course.run_unsignalled_of_finished ?_ rest⟩
  rcases r with p | e | id
  · trivial
  · exact ⟨by simp, fun _ => trivial⟩
  · exact absurd rfl (refused id)

/-- A run in a live session up to the end of its session. -/
theorem run_session_of_tour {ts : List (Turn σ)} {h : Halt}
    (acquired : (o.manager.acquire o.config).run env none w = (.finished (.ok (.ok id)), v))
    (tour : o.policy.tour env 1 case.steps v = ⟨ts, some h, u⟩) (calm : h.panic? = none) :
    (o.session case).run env none w =
      (.finished (w.now, .ok (.ok (h.close { entries := ts.map Turn.entry }))), u) := by
  have interpreted := Policy.run_interpret_of_tour tour
  rw [calm] at interpreted
  rw [session, Course.run_now_bind]
  refine Course.run_bind_finished_iff.2 ⟨_, v, acquired, ?_⟩
  refine Course.run_bind_finished_iff.2 ⟨_, u, ?_, rfl⟩
  exact Course.run_bind_finished_iff.2 ⟨_, u, interpreted, rfl⟩

/-- The entries of the steps stand first in the report. -/
theorem entries_of_run_execute {b : Report}
    (acquired : (o.manager.acquire o.config).run env none w = (.finished (.ok (.ok id)), v))
    (run : (o.execute case).run env none w = (.finished (.ok b), u)) :
    (o.policy.tour env 1 case.steps v).entries <+: b.entries := by
  rw [execute, Course.run_now_bind] at run
  obtain ⟨a, v', acquired', served⟩ := Course.run_bind_finished_iff.1 run
  obtain ⟨⟨⟩, rfl⟩ := Prod.mk.inj (acquired.symm.trans acquired')
  obtain ⟨log, x, steps, released⟩ := Course.run_bind_finished_iff.1 served
  obtain ⟨-, y, -, reported⟩ := Course.run_bind_finished_iff.1 released
  obtain ⟨d, z, -, last⟩ := Course.run_bind_finished_iff.1 reported
  obtain rfl : b = .ofLog case.name log d := by
    simpa [Course.run, eq_comm] using (Prod.mk.inj last).1
  obtain ⟨⟨walked, panic⟩, x', interpreted, closed⟩ := Course.run_bind_finished_iff.1 steps
  rw [← Policy.entries_of_run_interpret interpreted]
  cases panic with
  | none =>
    obtain ⟨⟨⟩, -⟩ := Prod.mk.inj closed
    exact List.prefix_refl _
  | some q =>
    obtain ⟨_, _, -, marked⟩ := Course.run_bind_finished_iff.1 closed
    obtain ⟨_, _, -, last⟩ := Course.run_bind_finished_iff.1 marked
    obtain ⟨⟨⟩, -⟩ := Prod.mk.inj last
    exact List.prefix_append _ _

/-- The end of a run, after its steps. -/
theorem run_execute_of_session {start : Nat} {log : Log}
    (session : (o.session case).run env none w = (.finished (start, .ok (.ok log)), v))
    (answered : (env.quit v.now v.outside).takes.isSome) : ∃ d u,
      (o.execute case).run env none w = (.finished (.ok (.ofLog case.name log d)), u) ∧
      w.callsSince u = w.callsSince v ++ [(v.now, .quit)] ∧ .quit ∉ (w.callsSince v).map (·.2) ∧
      ((o.session case).run env.unsignalled none w.unsignalled =
          (.finished (start, .ok (.ok log)), v.unsignalled) →
        (o.execute case).run env.unsignalled none w.unsignalled =
          (.finished (.ok (.ofLog case.name log d)), u.unsignalled)) := by
  obtain ⟨t, due⟩ : ∃ t, (v.begin env .quit).due = some t := by
    simp [World.begin, World.call, Option.isSome_iff_exists.1 answered]
  obtain ⟨d, u, closed, -, journal⟩ := run_close case start log due
  obtain ⟨xs, before, asked⟩ := Course.run_leads_of_asks (o.session_asks case) env none w
  rw [session] at before
  refine ⟨d, u, ?_, ?_, ?_, fun session' => ?_⟩
  · rw [execute_eq_session_bind]
    exact Course.run_bind_finished_iff.2 ⟨_, v, session, closed⟩
  · obtain ⟨ys, after⟩ := Course.run_leads env none (close case (start, .ok (.ok log))) v
    rw [closed] at after
    obtain rfl : [(v.now, .quit)] = ys :=
      List.append_cancel_right (journal.symm.trans after.journal)
    rw [before.callsSince_append after, after.callsSince_eq]
    rfl
  · rw [before.callsSince_eq]
    intro quit
    obtain ⟨x, hx, call⟩ := List.mem_map.1 quit
    obtain ⟨r, other, same⟩ := asked x (List.mem_reverse.1 hx)
    exact other (Request.call?_eq_quit_iff.1 (call ▸ same))
  · have asks : Asks (fun r : Request => r ≠ .cancelled) (close case (start, .ok (.ok log))) :=
      ⟨by simp, fun _ => ⟨by simp, fun _ => ⟨by simp, fun _ => trivial⟩⟩⟩
    rw [execute_eq_session_bind]
    exact Course.run_bind_finished_iff.2
      ⟨_, _, session', Course.run_unsignalled_of_finished asks closed⟩

/-- A log tells that a run was cancelled when steps are left that nothing else kept from being
taken. -/
theorem cancelled_iff_of_tour {p : Policy} {steps : List Step} {ts : List (Turn σ)} {h : Halt}
    (tour : p.tour env 1 steps v = ⟨ts, some h, u⟩) (calm : h.panic? = none) :
    (h.close { entries := ts.map Turn.entry }).cancelled = true ↔
      ts.length < steps.length ∧ ∀ t, ts.getLast? = some t → p.stops t.result = false := by
  cases h with
  | finished =>
    have length := Policy.length_of_finished (congrArg Tour.halt tour)
    rw [tour] at length
    simp [Halt.close, length]
  | stopped =>
    obtain ⟨t, last, stops⟩ := Policy.stops_of_stopped (congrArg Tour.halt tour)
    rw [tour] at last
    simp [Halt.close, Log.abort, last, stops]
  | cancelled =>
    refine iff_of_true rfl ?_
    obtain ⟨other, -⟩ | ⟨-, -, s, rest, past⟩ := p.tour_unsignalled env 1 steps v
    · exact absurd (congrArg Tour.halt tour) other
    · rw [tour] at past
      constructor
      · have steps := congrArg List.length past.steps_eq
        simp only [List.length_append, List.length_map, List.length_cons] at steps
        omega
      · intro t last
        exact past.not_stops t.unsignalled (List.mem_map_of_mem (List.mem_of_getLast? last))
  | crashed => cases calm

/-- **A signal ends a run after the step that is under way.** The steps that a run with a session
takes are the first ones of the run that nobody stops, with the same results at the same instants.
None is taken once the run is told to stop, and the step after which that shows is the last one.
Unless the interpreter panics, the report holds the entries of these steps, and says that the run
was cancelled exactly if steps are left and the last one did not end the run itself; if it does not
say so, it is the report of the run that nobody stops. The session is ended by the last call, and
by no other one. A run that gets no session does not notice a signal. -/
theorem signal_ends_run {σ : Type} (o : Orchestrator) (case : TestCase) (env : Environment σ)
    (w v : World σ) :
    (∀ id, (o.manager.acquire o.config).run env none w = (.finished (.ok (.ok id)), v) →
      ((o.manager.acquire o.config).run env.unsignalled none w.unsignalled =
        (.finished (.ok (.ok id)), v.unsignalled)) ∧
      let taken := o.policy.tour env 1 case.steps v
      let whole := o.policy.tour env.unsignalled 1 case.steps v.unsignalled
      taken.turns.map Turn.unsignalled = whole.turns.take taken.turns.length ∧
      (v.isCancelled = true → taken.turns = [] ∧ taken.world = v) ∧
      (∀ i t, taken.turns[i]? = some t → t.after.isCancelled = true →
        taken.turns.length = i + 1 ∧ taken.world = t.after) ∧
      (taken.halt = none → whole.halt = none) ∧
      ∀ h, taken.halt = some h → h.panic? = none →
        (env.quit taken.world.now taken.world.outside).takes.isSome →
        ∃ b u, (o.execute case).run env none w = (.finished (.ok b), u) ∧
          b.entries = whole.entries.take taken.turns.length ∧
          (b.cancelled = true ↔ taken.turns.length < case.steps.length ∧
            ∀ t, taken.turns.getLast? = some t → o.policy.stops t.result = false) ∧
          (∀ b' u', (o.execute case).run env.unsignalled none w.unsignalled =
              (.finished (.ok b'), u') → b.entries = b'.entries.take taken.turns.length) ∧
          (b.cancelled = false → (o.execute case).run env.unsignalled none w.unsignalled =
            (.finished (.ok b), u.unsignalled)) ∧
          w.callsSince u = w.callsSince taken.world ++ [(taken.world.now, .quit)] ∧
          .quit ∉ (w.callsSince taken.world).map (·.2)) ∧
    ∀ r b u, (∀ id, r ≠ .ok (.ok id)) →
      (o.manager.acquire o.config).run env none w = (.finished r, v) →
      (o.execute case).run env none w = (.finished b, u) →
      (o.execute case).run env.unsignalled none w.unsignalled = (.finished b, u.unsignalled) := by
  refine ⟨fun id acquired => ?_, fun r b u none acquired run => ?_⟩
  · have acquired' := Course.run_unsignalled_of_finished (acquire_asks_unsignalled o) acquired
    refine ⟨acquired', ?_⟩
    intro taken whole
    have same := o.policy.turns_unsignalled env 1 case.steps v
    have spine := o.policy.tour_unsignalled env 1 case.steps v
    refine ⟨same, fun cancelled => o.policy.tour_of_isCancelled env 1 case.steps cancelled,
      fun i t => Policy.tour_ends_of_isCancelled, fun hangs => ?_, fun h halts calm answered => ?_⟩
    · obtain ⟨-, whole_eq⟩ | ⟨cancelled, -⟩ := spine
      · exact (congrArg Tour.halt whole_eq).trans hangs
      · cases hangs.symm.trans cancelled
    · have tour : o.policy.tour env 1 case.steps v = ⟨taken.turns, some h, taken.world⟩ := by
        rw [← halts]
      obtain ⟨d, u, run, calls, once, alike⟩ :=
        run_execute_of_session (run_session_of_tour acquired tour calm) answered
      have entries := o.policy.entries_unsignalled env 1 case.steps v
      refine ⟨_, u, run, ?_, cancelled_iff_of_tour tour calm, fun b' u' run' => ?_, fun flag => ?_,
        calls, once⟩
      · exact (Halt.close_entries h _).trans entries
      · obtain ⟨more, appended⟩ := entries_of_run_execute acquired' run'
        have short : taken.turns.length ≤ whole.entries.length := by
          simpa [Tour.entries] using o.policy.length_le_unsignalled env 1 case.steps v
        rw [← appended, List.take_append_of_le_length short]
        exact (Halt.close_entries h _).trans entries
      · obtain ⟨-, whole_eq⟩ | ⟨cancelled, -⟩ := spine
        · refine alike ?_
          have tour' : whole =
              ⟨taken.turns.map Turn.unsignalled, some h, taken.world.unsignalled⟩ := by
            rw [← halts]
            exact whole_eq
          have session := run_session_of_tour acquired' tour' calm
          rwa [Turn.map_unsignalled_entry] at session
        · cases halts.symm.trans cancelled
          cases flag
  · exact run_unsignalled_of_refused none acquired run

/-- A key is to be pressed twice, and the answer to the first press signals: one entry, as without
the signal, and the run is cancelled. A run that is refused its session and was told to stop before
it began reports what it reports otherwise. -/
theorem signal_ends_run_keyPress : ∃ (b b' r : Report) (u u' z : World Rehearsal.State),
    (plainRun.execute { keyPress with steps := keyPress.steps ++ keyPress.steps }).run
      (Rehearsal.environment .deserted {}) none
      { outside := { screen := { faults := [⟨.only 0, .cancels⟩] } } } = (.finished (.ok b), u) ∧
    (plainRun.execute { keyPress with steps := keyPress.steps ++ keyPress.steps }).run
      (Rehearsal.environment .deserted {}).unsignalled none
      { outside := { screen := { faults := [⟨.only 0, .cancels⟩] } } } = (.finished (.ok b'), u') ∧
    b'.entries.length = 2 ∧ b.entries = b'.entries.take 1 ∧ b.cancelled = true ∧
    (plainRun.execute keyPress).run (Rehearsal.environment .deserted {}).unsignalled none
      { outside := { connections := [{ error := some (.sessionRejected "no") }] } } =
        (.finished (.ok r), z) ∧ r.cancelled = false := by
  let env := Rehearsal.environment .deserted {}
  let case : TestCase := { keyPress with steps := keyPress.steps ++ keyPress.steps }
  let w : World Rehearsal.State := { outside := { screen := { faults := [⟨.only 0, .cancels⟩] } } }
  let acquire := plainRun.manager.acquire plainRun.config
  have live : (acquire.run env none w).1.result?.any
      (fun r => r.toOption.any fun r => r.isOk) = true := by decide +kernel
  have halts : (plainRun.policy.tour env 1 case.steps (acquire.run env none w).2).turns.length = 1 ∧
      (plainRun.policy.tour env 1 case.steps (acquire.run env none w).2).halt.any
        (fun h => h.panic?.isNone) = true := by decide +kernel
  have reported : ((plainRun.execute case).run env none w).1.report?.all (·.cancelled) = true := by
    decide +kernel
  have whole : ((plainRun.execute case).run env.unsignalled none w).1.report?.any
      (·.entries.length = 2) = true := by decide +kernel
  obtain ⟨acquired, result, ok⟩ := (Option.any_eq_true _ _).1 live
  obtain ⟨id, rfl⟩ : ∃ id, acquired = .ok (.ok id) := by
    rcases acquired with q | e | id
    · cases ok
    · cases ok
    · exact ⟨id, rfl⟩
  have served : acquire.run env none w = (.finished (.ok (.ok id)), _) :=
    Prod.ext (Progress.result?_eq_some_iff.1 result) rfl
  obtain ⟨b', report, two⟩ := (Option.any_eq_true _ _).1 whole
  have run' : (plainRun.execute case).run env.unsignalled none w = (.finished (.ok b'), _) :=
    Prod.ext (Progress.report?_eq_some_iff.1 report) rfl
  obtain ⟨h, halt, calm⟩ := (Option.any_eq_true _ _).1 halts.2
  obtain ⟨-, -, -, -, -, ends⟩ := (signal_ends_run plainRun case env w _).1 id served
  obtain ⟨b, u, run, -, -, same, -⟩ := ends h halt (Option.isNone_iff_eq_none.1 calm) rfl
  have first := same b' _ run'
  rw [halts.1] at first
  rw [run] at reported
  let refused : World Rehearsal.State :=
    { outside := { connections := [{ error := some (.sessionRejected "no") }] }
      cancelAt := some 0 }
  have turned : (acquire.run env none refused).1.result?.any
      (fun r => r.toOption.any fun r => !r.isOk) = true := by decide +kernel
  have stays : ((plainRun.execute keyPress).run env none refused).1.report?.any
      (!·.cancelled) = true := by decide +kernel
  obtain ⟨none, result, error⟩ := (Option.any_eq_true _ _).1 turned
  obtain ⟨r, report, flag⟩ := (Option.any_eq_true _ _).1 stays
  have other : ∀ id, none ≠ .ok (.ok id) := by
    rintro id rfl
    cases error
  have alike := (signal_ends_run plainRun keyPress env refused _).2 none (.ok r) _ other
    (Prod.ext (Progress.result?_eq_some_iff.1 result) rfl)
    (Prod.ext (Progress.report?_eq_some_iff.1 report) rfl)
  exact ⟨b, b', r, u, _, _, run, run', by simpa using two, first, reported, alike,
    by simpa using flag⟩

end Orchestrator

end UiRunner.Run
