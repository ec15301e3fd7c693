import UiRunner.Proofs.Action.Search
import UiRunner.Proofs.Run.Ending
import UiRunner.Proofs.WebDriver.Reply

/-!
# Commands of a session

In a live session every command that a step calls for is one request, in the same order, and
nothing else is sent. The requests and what came of them are kept in the history of the client, so
what an action reports can be traced to the replies that it got.
-/
namespace UiRunner.WebDriver

open Device Http Run Session Routine UiRunner.Action

variable {σ α : Type} {net : Network σ} {p : Patience} {adb : Adb.Installation} {l : Live}

/-- A command that was called for, and what came of its request. -/
abbrev Made := Command × Http.Outcome

/-- The request for a command in a session. -/
def sent (p : Patience) (l : Live) (m : Made) : Sent := ⟨commandRequest p l m.1, m.2⟩

/-- What a script is told of a command. -/
def told (p : Patience) (m : Made) : Action.Exchange := ⟨.command m.1, commandVerdict p m.1 m.2⟩

/-- From one world to another these calls were made, and these requests sent. -/
structure Sends (w u : World (Client σ)) (xs : List Sent) (calls : List Call) : Prop where
  history : u.outside.history = xs.reverse ++ w.outside.history
  calls : ∃ ys, w.Leads u ys ∧ ys.map Prod.snd = calls.reverse

namespace Sends

variable {w v u : World (Client σ)} {xs ys : List Sent} {calls later : List Call}

theorem trans (h : Sends w v xs calls) (g : Sends v u ys later) :
    Sends w u (xs ++ ys) (calls ++ later) where
  history := by simp [g.history, h.history]
  calls := by
    obtain ⟨xs, before, calls⟩ := h.calls
    obtain ⟨ys, after, later⟩ := g.calls
    exact ⟨ys ++ xs, before.trans after, by simp [calls, later]⟩

/-- Where nothing is called for, nothing is sent. -/
theorem of_quiet (same : u.outside = w.outside) (leads : w.Leads u []) : Sends w u [] [] :=
  ⟨by rw [same]; rfl, [], leads, rfl⟩

theorem refl (w : World (Client σ)) : Sends w w [] [] := .of_quiet rfl (.refl w)

theorem callsSince_eq (h : Sends w u xs calls) : (w.callsSince u).map Prod.snd = calls := by
  obtain ⟨ys, leads, same⟩ := h.calls
  rw [leads.callsSince_eq, List.map_reverse, same, List.reverse_reverse]

end Sends

/-- From one world to another these commands were called for in a session, and each was sent
once. -/
structure Converses (p : Patience) (l : Live) (w u : World (Client σ)) (made : List Made) : Prop
    extends Sends w u (made.map (sent p l)) (made.map fun m => .command m.1) where
  live : u.outside.live = some l

namespace Converses

variable {w v u : World (Client σ)} {made later : List Made}

theorem refl (live : w.outside.live = some l) : Converses p l w w [] := ⟨.refl w, live⟩

theorem trans (h : Converses p l w v made) (g : Converses p l v u later) :
    Converses p l w u (made ++ later) :=
  ⟨by simpa using h.toSends.trans g.toSends, g.live⟩

theorem of_quiet (live : w.outside.live = some l) (same : u.outside = w.outside)
    (leads : w.Leads u []) : Converses p l w u [] :=
  ⟨.of_quiet same leads, same ▸ live⟩

end Converses

/-! ## One request -/

/-- A command of a live session is one request. -/
theorem command_of_live (net : Network σ) (p : Patience) (c : Command) {s : Client σ}
    (live : s.live = some l) : ∃ o t after, command net p c s = (commandVerdict p c o, t,
      { s with net := after, history := sent p l (c, o) :: s.history }) := by
  obtain ⟨o, t, after, send⟩ : ∃ o t after, net.send (commandRequest p l c) s.net =
      (o, t, after) := ⟨_, _, _, rfl⟩
  exact ⟨o, t, after, by simp [command, live, exchange, send, sent]⟩

/-- A command is sent when it is called for. It is answered with what came of it, or given up. -/
theorem act_command (net : Network σ) (adb : Adb.Installation) {w : World (Client σ)}
    (live : w.outside.live = some l) (c : Command) (cutoff : Option Nat) : ∃ o t,
      Converses p l w (w.act (environment net p adb) cutoff (.command c)).world [(c, o)] ∧
      (w.act (environment net p adb) cutoff (.command c)).due = some t ∧
      ((∀ v, (w.act (environment net p adb) cutoff (.command c)).finish v =
          (.answered (commandVerdict p c o), v)) ∨
        ∀ v, (w.act (environment net p adb) cutoff (.command c)).finish v = (.cut, v)) := by
  obtain ⟨o, t, after, made⟩ := command_of_live net p c live
  have begun : (environment net p adb).command w.now c w.outside = {
      begun := { w.outside with net := after, history := sent p l (c, o) :: w.outside.history }
      takes := some t
      atOnce := false
      finish := fun s => (.ok (commandVerdict p c o), s) } := by
    simp only [environment, made, live]
    rfl
  have world : (w.await (environment net p adb) (.command c)).world =
      { w with
        outside := { w.outside with net := after, history := sent p l (c, o) :: w.outside.history }
        journal := (w.now, .command c) :: w.journal } := by
    simp only [World.await, begun]
    rfl
  have due : (w.await (environment net p adb) (.command c)).due = some (w.now + t) :=
    World.due_command (by rw [begun])
  have finish : ∀ v, (w.await (environment net p adb) (.command c)).finish v =
      (.answered (commandVerdict p c o), v) := by
    simp [World.await, begun, Underway.map, World.call, Fate.ofExcept]
  have converses : Converses p l w (w.act (environment net p adb) cutoff (.command c)).world
      [(c, o)] := by
    have leads := World.begin_leads (environment net p adb) w (.act (.command c) cutoff)
    rw [World.begin, World.act_world] at leads
    rw [World.act_world]
    refine ⟨⟨?_, _, leads, rfl⟩, ?_⟩
    · rw [world]
      rfl
    · rw [world]
      exact live
  refine ⟨o, ?_⟩
  cases cutoff with
  | none =>
    rw [World.act_none] at converses ⊢
    exact ⟨_, converses, due, .inl finish⟩
  | some instant =>
    cases inTime : (w.await (environment net p adb) (.command c)).isInTime instant with
    | true =>
      have same : w.act (environment net p adb) (some instant) (.command c) =
          w.await (environment net p adb) (.command c) := by
        simp only [World.act, Underway.cutAt, inTime, if_true]
      rw [same] at converses ⊢
      exact ⟨_, converses, due, .inl finish⟩
    | false =>
      have calm : (w.await (environment net p adb) (.command c)).onGiveUp = none := by
        simp [World.await, begun, Underway.map, World.call]
      refine ⟨instant, converses, ?_, .inr fun v => ?_⟩
      · simp only [World.act, Underway.cutAt, inTime, Bool.false_eq_true, if_false]
      · simp only [World.act, Underway.cutAt, inTime, Bool.false_eq_true, if_false, calm,
          Fate.ofGiveUp]

/-- Nothing else that an action asks for is sent. -/
theorem act_other (net : Network σ) (p : Patience) (adb : Adb.Installation) {r : Action.Request}
    (other : ∀ c, r ≠ .command c) (w : World (Client σ)) (cutoff : Option Nat)
    (v : World (Client σ)) :
    (w.act (environment net p adb) cutoff r).world.outside = w.outside ∧
      w.Leads (w.act (environment net p adb) cutoff r).world [] ∧
      ((w.act (environment net p adb) cutoff r).finish v).2.outside = v.outside := by
  have leads := World.begin_leads (environment net p adb) w (.act r cutoff)
  rw [World.act_world]
  refine ⟨?_, ?_, World.act_finish _ w (·.outside) (fun u => ?_) cutoff v⟩
  · cases r with
    | command c => exact absurd rfl (other c)
    | pause | now | makeDirectories | write | forever => rfl
  · rw [World.begin, World.act_world] at leads
    cases r with
    | command c => exact absurd rfl (other c)
    | pause | now | makeDirectories | write | forever => exact leads
  · cases r with
    | command c => exact absurd rfl (other c)
    | pause | now | makeDirectories | write | forever => rfl

/-! ## One script -/

/-- A script has come to this point with these commands. The last one may not have been answered. -/
inductive Plays (p : Patience) :
    Routine Action.stage α → List Made → Routine Action.stage α → Prop where
  | here (q : Routine Action.stage α) : Plays p q [] q
  | other {r : Action.Request} {next : r.Answer → Routine Action.stage α} {x : r.Answer}
      {made : List Made} {q : Routine Action.stage α} :
      (∀ c, r ≠ .command c) → Plays p (next x) made q → Plays p (.ask r next) made q
  | answered {c : Command} {o : Http.Outcome}
      {next : Except Error c.Answer → Routine Action.stage α} {made : List Made}
      {q : Routine Action.stage α} :
      Plays p (next (commandVerdict p c o)) made q →
      Plays p (.ask (.command c) next) ((c, o) :: made) q
  | unanswered {c : Command} {next : Except Error c.Answer → Routine Action.stage α}
      (o : Http.Outcome) : Plays p (.ask (.command c) next) [(c, o)] (.ask (.command c) next)

/-- A script that has ended was told what came of its commands. -/
theorem Plays.ends {q q' : Routine Action.stage α} {made : List Made} (plays : Plays p q made q')
    {a : α} (ended : q' = .done a) : ∃ xs, Ends q xs a ∧ callsIn xs = made.map (told p) := by
  induction plays with
  | here q =>
    subst ended
    exact ⟨[], .done a, rfl⟩
  | @other r next x made q other _ ih =>
    obtain ⟨xs, ends, calls⟩ := ih ended
    refine ⟨_, .ask ends, ?_⟩
    cases r <;> first | exact calls | exact absurd rfl (other _)
  | answered _ ih =>
    obtain ⟨xs, ends, calls⟩ := ih ended
    exact ⟨_, .ask ends, congrArg (_ :: ·) calls⟩
  | unanswered o => cases ended

section

variable {w v : World (Client σ)} {cutoff : Option Nat} {t : Nat}

/-- The session after a command was answered or given up. -/
theorem converses_of_command (live : w.outside.live = some l) {c : Command}
    {x : Fate (Except Error c.Answer)}
    (answer : (w.act (environment net p adb) cutoff (.command c)).finish
      ((w.act (environment net p adb) cutoff (.command c)).world.reach t) = (x, v)) :
    ∃ o, Converses p l w v [(c, o)] ∧ (x = .answered (commandVerdict p c o) ∨ x = .cut) := by
  obtain ⟨o, -, begun, -, fate⟩ := act_command net adb live c cutoff
  obtain ⟨leads, -⟩ := World.leads_of_answer answer
  have same : v = (w.act (environment net p adb) cutoff (.command c)).world.reach t := by
    obtain fate | fate := fate
    · exact (Prod.mk.inj ((fate _).symm.trans answer)).2.symm
    · exact (Prod.mk.inj ((fate _).symm.trans answer)).2.symm
  have after := begun.trans (.of_quiet begun.live (by rw [same]; rfl) leads)
  refine ⟨o, after, ?_⟩
  obtain fate | fate := fate
  · exact .inl (Prod.mk.inj ((fate _).symm.trans answer)).1.symm
  · exact .inr (Prod.mk.inj ((fate _).symm.trans answer)).1.symm

/-- The session after anything else was answered. -/
theorem converses_of_other (live : w.outside.live = some l) {r : Action.Request}
    (other : ∀ c, r ≠ .command c) {x : Fate r.Answer}
    (answer : (w.act (environment net p adb) cutoff r).finish
      ((w.act (environment net p adb) cutoff r).world.reach t) = (x, v)) :
    Converses p l w v [] := by
  obtain ⟨leads, -⟩ := World.leads_of_answer answer
  obtain ⟨begun, before, outside⟩ := act_other net p adb other w cutoff
    ((w.act (environment net p adb) cutoff r).world.reach t)
  rw [answer] at outside
  exact .of_quiet live (outside.trans begun) (before.trans leads)

end

/-- A script in a live session sends what it calls for. -/
theorem run_within (net : Network σ) (adb : Adb.Installation) (cutoff : Option Nat)
    (q : Routine Action.stage α) {w : World (Client σ)} (live : w.outside.live = some l) :
    ∃ made q', Plays p q made q' ∧
      Converses p l w ((within cutoff q).run (environment net p adb) none w).2 made ∧
      ∀ a u, (within cutoff q).run (environment net p adb) none w = (.finished (.answered a), u) →
        q' = .done a := by
  induction q generalizing w with
  | done a =>
    refine ⟨[], _, .here _, .refl live, fun b u same => ?_⟩
    cases same
    rfl
  | ask r next ih =>
    cases due : (w.act (environment net p adb) cutoff r).due with
    | none =>
      obtain ⟨pending, waits⟩ := within_run_of_never next due
      rw [waits]
      have other : ∀ c, r ≠ .command c := by
        rintro c rfl
        obtain ⟨o, t, -, due', -⟩ := act_command net adb live c cutoff
        cases due.symm.trans due'
      obtain ⟨begun, before, -⟩ := act_other net p adb other w cutoff w
      exact ⟨[], _, .here _, .of_quiet live begun before, by simp⟩
    | some t =>
      obtain ⟨x, v, answer⟩ : ∃ x v, (w.act (environment net p adb) cutoff r).finish
          ((w.act (environment net p adb) cutoff r).world.reach t) = (x, v) := ⟨_, _, rfl⟩
      rw [within_run_of_due next due answer]
      by_cases other : ∀ c, r ≠ .command c
      · have quiet := converses_of_other live other answer
        cases x with
        | answered a =>
          obtain ⟨made, q', plays, later, ended⟩ := ih a quiet.live
          exact ⟨made, q', .other other plays, quiet.trans later, ended⟩
        | panicked | cut | crashed =>
          refine ⟨[], _, .here _, quiet, fun a u same => ?_⟩
          cases same
      · obtain ⟨c, rfl⟩ := by simpa using other
        obtain ⟨o, begun, rfl | rfl⟩ := converses_of_command live answer
        · obtain ⟨made, q', plays, later, ended⟩ := ih _ begun.live
          exact ⟨_, q', .answered plays, begun.trans later, ended⟩
        · refine ⟨_, _, .unanswered o, begun, fun a u same => ?_⟩
          cases same

/-! ## One step -/

/-- Every one of these commands that is about an element is about the one that the last search
before it has found. -/
def Threaded (p : Patience) : Option ElementId → List Made → Prop
  | _, [] => True
  | last, m :: rest =>
    (∀ e, m.1.element? = some e → last = some e) ∧ Threaded p (found last (told p m)) rest

theorem Threaded.append {last : Option ElementId} {made later : List Made}
    (h : Threaded p last made) (g : ∀ last, Threaded p last later) :
    Threaded p last (made ++ later) := by
  induction made generalizing last with
  | nil => exact g last
  | cons m rest ih => exact ⟨h.1, ih h.2⟩

section

variable {w : World (Client σ)} {policy : Policy} {step : Step}

/-- What keeps an action from being prepared is no outcome. -/
theorem ne_outcome_of_unprepared {r : StepResult} (unprepared : policy.prepare step = .error r)
    (o : Action.Outcome) : r ≠ .ok (some o) := by
  rintro rfl
  unfold Policy.prepare at unprepared
  split at unprepared
  · cases unprepared
  · split at unprepared
    · cases unprepared
    · split at unprepared <;> cases unprepared

theorem result_eq_outcome {name : String} {f : Fate (Except Error Action.Outcome)}
    {o : Action.Outcome} (same : policy.result name f = .ok (.ok (some o))) :
    f = .answered (.ok o) := by
  rcases f with (e | o') | q | _ | q
  · cases same
  · cases same
    rfl
  · cases same
  · cases same
  · cases same

/-- A step in a live session is over at once, or it runs the script of its action. -/
theorem run_execute (net : Network σ) (adb : Adb.Installation) (policy : Policy) (step : Step)
    (live : w.outside.live = some l) :
    (∃ r, policy.prepare step = .error r ∧
      (policy.execute step).run (environment net p adb) none w = (.finished (.ok r), w)) ∨
    ∃ d ps made q', policy.prepare step = .ok (d, ps) ∧
      Plays p (d.behavior.script policy.settings ps).run made q' ∧
      Converses p l w ((policy.execute step).run (environment net p adb) none w).2 made ∧
      ∀ o u, (policy.execute step).run (environment net p adb) none w =
        (.finished (.ok (.ok (some o))), u) → q' = .done (.ok o) := by
  cases prepared : policy.prepare step with
  | error r => exact .inl ⟨r, rfl, Policy.run_execute_of_unprepared prepared policy.limit⟩
  | ok action =>
    obtain ⟨d, ps⟩ := action
    obtain ⟨made, q', plays, converses, ended⟩ := run_within (p := p) net adb
      (policy.limit.map (Clock.wake w.now)) (d.behavior.script policy.settings ps).run live
    have run : (policy.execute step).run (environment net p adb) none w = _ :=
      Policy.run_execute_of_prepared prepared policy.limit
    refine .inr ⟨d, ps, made, q', rfl, plays, ?_, fun o u finished => ?_⟩
    · rw [← Course.run_bind_done_world _ _ _ (policy.result d.name)] at converses
      exact run ▸ converses
    · obtain ⟨f, v, script, last⟩ := Course.run_bind_finished_iff.1 (run.symm.trans finished)
      obtain ⟨same, -⟩ := Prod.mk.inj last
      obtain rfl := result_eq_outcome (Progress.finished.inj same)
      exact ended _ v script

end

/-! ## All steps -/

/-- What is sent is answered, and nothing else happens. -/
theorem run_ask_of_reaction {env : Environment (Client σ)} {w : World (Client σ)} {r : Run.Request}
    {c : Call} {x : r.Answer × Nat × Client σ} (begun : w.begin env r = w.call c (reaction x)) :
    ∃ u, u.outside = x.2.2 ∧ w.Leads u [(w.now, c)] ∧ ∀ {β : Type} (f : r.Answer → Course β),
      (ask r >>= f).run env none w = (f x.1).run env none u := by
  refine ⟨(w.call c (reaction x)).world.reach (w.now + x.2.1), rfl, ?_, fun f => ?_⟩
  · exact (World.call_leads ..).trans (World.reach_leads ..)
  · refine (Course.run_ask_of_due (t := w.now + x.2.1) ?_).trans ?_
    · rw [begun]
      rfl
    · rw [begun]
      rfl

/-- A server that gives these replies in turn, and then closes every connection. -/
def replying : Network (List (Http.Status × String)) where
  meet _ _
    | [] => (.closed, [])
    | (status, body) :: rest => (.answered status (Bytes.ofText body) false, rest)

end UiRunner.WebDriver
