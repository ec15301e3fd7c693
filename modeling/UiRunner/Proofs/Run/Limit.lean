import UiRunner.Proofs.Run.Outline
import UiRunner.Proofs.Run.Tour
import UiRunner.Rehearsal.Environment

/-!
# Step limits

A limit changes nothing about a step that is over in time. One that ends when the limit does is in
time, unless it then still asks for something that is not there at once. A step that is not in time
is cut when the limit is over: until then it made the calls that it makes without a limit, and the
run ends with it.
-/
namespace UiRunner.Run

open Routine UiRunner.Action

variable {σ α : Type}

/-! ## Cutting a script -/

theorem Underway.comesBy_some_iff {due : Option Nat} {l : Nat} :
    comesBy due (some l) = true ↔ ∃ t, due = some t ∧ t ≤ l := by
  cases due <;> simp [comesBy]

theorem Underway.isInTime_iff {u : Underway σ α} {c : Nat} : u.isInTime c = true ↔
    ∃ t, u.due = some t ∧ t ≤ c ∧ (u.atOnce = true ∨ u.world.now < c) := by
  rw [isInTime, Bool.and_eq_true, comesBy_some_iff, Bool.or_eq_true, decide_eq_true_iff]
  exact ⟨fun ⟨⟨t, due, le⟩, there⟩ => ⟨t, due, le, there⟩,
    fun ⟨t, due, le, there⟩ => ⟨⟨t, due, le⟩, there⟩⟩

theorem World.await_now (env : Environment σ) (w : World σ) (r : Action.Request) :
    (w.await env r).world.now = w.now := by
  rw [← act_none, act_now]

/-- Whoever awaits an answer that is late has not got it, or has begun too late for it. -/
theorem Underway.late_cases {env : Environment σ} {w : World σ} {r : Action.Request} {c : Nat}
    (le : w.now ≤ c) (late : (w.await env r).isInTime c = false) :
    comesBy (w.await env r).due (some c) = false ∨
      w.now = c ∧ (w.await env r).atOnce = false := by
  rw [isInTime, Bool.and_eq_false_iff, Bool.or_eq_false_iff, decide_eq_false_iff_not,
    World.await_now] at late
  exact late.imp_right fun ⟨later, begun⟩ => ⟨Nat.le_antisymm le (Nat.not_lt.1 begun), later⟩

/-- A limit that is not over yet only cuts what takes longer. -/
theorem World.act_some (env : Environment σ) {w : World σ} {c : Nat} (le : w.now ≤ c)
    (r : Action.Request) : w.act env (some c) r = (w.await env r).cutAt (some c) := by
  cases r with
  | command | pause | forever | makeDirectories | write => rfl
  | now =>
    have inTime : (w.await env .now).isInTime c = true :=
      Underway.isInTime_iff.2 ⟨w.now, rfl, le, .inl rfl⟩
    simp only [act, Underway.cutAt, inTime, if_true]

/-- A command is due when it is answered. -/
theorem World.due_command {env : Environment σ} {w : World σ} {c : Device.Command} {t : Nat}
    (takes : (env.command w.now c w.outside).takes = some t) :
    (w.await env (.command c)).due = some (w.now + t) := by
  simp [World.await, Underway.map, World.call, takes]

/-- Without a limit a request is answered, or a call panics. -/
theorem World.answer_of_await (env : Environment σ) (w v : World σ) {r : Action.Request} {t : Nat}
    (due : (w.await env r).due = some t) :
    (∃ a, ((w.await env r).finish v).1 = .answered a) ∨
      ∃ q, ((w.await env r).finish v).1 = .panicked q := by
  cases r with
  | command c =>
    simp only [await, Underway.map]
    cases ((w.call (.command c) (env.command w.now c w.outside)).finish v).1 with
    | ok a => exact .inl ⟨a, rfl⟩
    | error q => exact .inr ⟨q, rfl⟩
  | pause | now | makeDirectories | write => exact .inl ⟨_, rfl⟩
  | forever => cases due

/-- A run comes from `w` to `u`, and at this instant it has come to `b`. What it asks for there is
answered later, or just then. -/
structure World.Passes (w b u : World σ) (instant : Nat) (later : Prop) : Prop where
  before : ∃ xs, w.Leads b xs
  inTime : b.now ≤ instant
  after : ∃ ys, b.Leads u ys ∧ ∀ y ∈ ys, instant ≤ y.1 ∧ (later → instant < y.1)

namespace World.Passes

variable {w v b u z : World σ} {c : Nat} {later : Prop}

theorem callsSince (h : w.Passes b u c later) : ∃ rest,
    w.callsSince u = w.callsSince b ++ rest ∧ (∀ y ∈ w.callsSince b, y.1 ≤ c) ∧
      (∀ y ∈ rest, c ≤ y.1) ∧ (later → ∀ y ∈ rest, c < y.1) := by
  obtain ⟨xs, before⟩ := h.before
  obtain ⟨ys, after, late⟩ := h.after
  refine ⟨b.callsSince u, before.callsSince_append after, ?_⟩
  simp only [before.callsSince_eq, after.callsSince_eq, List.mem_reverse]
  exact ⟨fun y hy => (before.upTo y hy).trans h.inTime, fun y hy => (late y hy).1,
    fun strictly y hy => (late y hy).2 strictly⟩

theorem of_leads {xs : List (Nat × Call)} (h : w.Leads v xs) (g : v.Passes b u c later) :
    w.Passes b u c later := by
  obtain ⟨ys, before⟩ := g.before
  exact ⟨⟨_, h.trans before⟩, g.inTime, g.after⟩

/-- What happens after the instant does not matter. -/
theorem leads {zs : List (Nat × Call)} (h : w.Passes b u c later) (le : c ≤ u.now)
    (lt : later → c < u.now) (g : u.Leads z zs) : w.Passes b z c later := by
  obtain ⟨ys, after, late⟩ := h.after
  refine ⟨h.before, h.inTime, _, after.trans g, List.forall_mem_append.2 ⟨fun z hz => ?_, late⟩⟩
  exact ⟨le.trans (g.since z hz), fun strictly => (lt strictly).trans_le (g.since z hz)⟩

end World.Passes

section Script

variable {β : Type} {env : Environment σ} {w v : World σ} {c t : Nat} {r : Action.Request}
  {cutoff : Option Nat} {next : r.Answer → Routine Action.stage β}

/-- What becomes of a script after a request. -/
def Fate.goOn (k : α → Course (Fate β)) : Fate α → Course (Fate β)
  | .answered a => k a
  | .panicked q => .done (.panicked q)
  | .cut => .done .cut
  | .crashed q => .done (.crashed q)

/-- What comes of a script whose first request is answered in time. -/
theorem within_run_of_comes (next : r.Answer → Routine Action.stage β) {limit : Option Nat}
    (due : (w.act env cutoff r).due = some t) (comes : Underway.comesBy (some t) limit = true)
    {x : Fate r.Answer}
    (answer : (w.act env cutoff r).finish ((w.act env cutoff r).world.reach t) = (x, v)) :
    (within cutoff (.ask r next)).run env limit w =
      (x.goOn fun a => within cutoff (next a)).run env limit v := by
  have begun : (w.begin env (.act r cutoff)).due = some t := due
  simp only [within, Course.run, begun, comes, ite_true, Option.getD_some]
  simp only [World.begin, answer]
  cases x <;> rfl

/-- What comes of a script whose first request is due. -/
theorem within_run_of_due (next : r.Answer → Routine Action.stage β)
    (due : (w.act env cutoff r).due = some t) {x : Fate r.Answer}
    (answer : (w.act env cutoff r).finish ((w.act env cutoff r).world.reach t) = (x, v)) :
    (within cutoff (.ask r next)).run env none w =
      (x.goOn fun a => within cutoff (next a)).run env none v :=
  within_run_of_comes next due rfl answer

/-- What is exchanged by a script whose first request is due. -/
theorem within_trace_of_due (next : r.Answer → Routine Action.stage β)
    (due : (w.act env cutoff r).due = some t) {x : Fate r.Answer}
    (answer : (w.act env cutoff r).finish ((w.act env cutoff r).world.reach t) = (x, v)) :
    (within cutoff (.ask r next)).trace env none w =
      ⟨.act r cutoff, x⟩ :: (x.goOn fun a => within cutoff (next a)).trace env none v := by
  have begun : (w.begin env (.act r cutoff)).due = some t := due
  simp only [within, Course.trace, begun, Underway.comesBy, ite_true, Option.getD_some]
  simp only [World.begin, answer]
  cases x <;> rfl

/-- A request that is never answered is waited for. -/
theorem within_run_of_never (next : r.Answer → Routine Action.stage β)
    (never : (w.act env cutoff r).due = none) :
    ∃ pending, (within cutoff (.ask r next)).run env none w =
      (.waiting pending, (w.act env cutoff r).world) :=
  ⟨_, by simp only [within, Course.run, World.begin, never, Underway.comesBy]; rfl⟩

theorem within_trace_of_never (next : r.Answer → Routine Action.stage β)
    (never : (w.act env cutoff r).due = none) :
    (within cutoff (.ask r next)).trace env none w = [] := by
  simp only [within, Course.trace, World.begin, never, Underway.comesBy]
  rfl

/-- A request that is answered in time does not notice a limit. -/
theorem World.act_of_inTime (le : w.now ≤ c) (inTime : (w.await env r).isInTime c = true) :
    w.act env (some c) r = w.act env none r := by
  rw [act_some env le r, act_none, Underway.cutAt]
  simp only [inTime, if_true]

/-- A request that is not answered in time is given up. -/
theorem within_run_of_late (le : w.now ≤ c) (late : (w.await env r).isInTime c = false) :
    (within (some c) (.ask r next)).run env none w =
      (.finished (.ofGiveUp (w.await env r).onGiveUp), (w.await env r).world.reach c) := by
  have cut : w.act env (some c) r = { world := (w.await env r).world, due := some c
                                      finish v := (.ofGiveUp (w.await env r).onGiveUp, v) } := by
    rw [World.act_some env le r, Underway.cutAt]
    simp only [late, Bool.false_eq_true, if_false]
  rw [within_run_of_due next (by rw [cut]) (by rw [cut])]
  cases (w.await env r).onGiveUp <;> rfl

/-- Where a script has come to once its first request is answered. -/
theorem World.leads_of_answer {x : Fate r.Answer} (answer : (w.act env cutoff r).finish
    ((w.act env cutoff r).world.reach t) = (x, v)) :
    (w.act env cutoff r).world.Leads v [] ∧ v.now = max w.now t := by
  have answered := finish_leads env w ((w.act env cutoff r).world.reach t) (.act r cutoff)
  rw [begin, answer] at answered
  have now : v.now = ((w.act env cutoff r).world.reach t).now :=
    (congrArg (·.2.now) answer).symm.trans (act_finish_now ..)
  exact ⟨(reach_leads _ t).trans answered, by rw [now, reach, act_now]⟩

/-- Without a limit, a request that is answered late is under way at the instant of the limit. -/
theorem World.passes_of_late (next : r.Answer → Routine Action.stage β) (le : w.now ≤ c)
    (late : (w.await env r).isInTime c = false) :
    w.Passes (w.await env r).world ((within none (.ask r next)).run env none w).2 c
        (Underway.comesBy (w.await env r).due (some c) = false) ∧
      ∀ f u, (within none (.ask r next)).run env none w = (.finished f, u) →
        c ≤ u.now ∧ (Underway.comesBy (w.await env r).due (some c) = false → c < u.now) := by
  have late := Underway.late_cases le late
  have waits : (w.await env r).world.now ≤ c := (w.await_now env r).trans_le le
  have begun := begin_leads env w (.act r none)
  rw [begin] at begun
  rw [← act_none] at late waits ⊢
  cases due : (w.act env none r).due with
  | none =>
    obtain ⟨pending, stuck⟩ := within_run_of_never next due
    rw [stuck]
    exact ⟨⟨⟨_, begun⟩, waits, [], .refl _, by simp⟩, by simp⟩
  | some t =>
    rw [due] at late
    obtain ⟨x, v, answer⟩ : ∃ x v, (w.act env none r).finish
        ((w.act env none r).world.reach t) = (x, v) := ⟨_, _, rfl⟩
    obtain ⟨answered, instant⟩ := leads_of_answer answer
    have strictly : Underway.comesBy (some t) (some c) = false → c < v.now := by
      intro later
      simp only [Underway.comesBy, decide_eq_false_iff_not] at later
      omega
    have after : c ≤ v.now := by
      obtain later | ⟨here, -⟩ := late
      · exact (strictly later).le
      · omega
    rw [within_run_of_due next due answer]
    obtain ⟨ys, rest⟩ := Course.run_leads env none (x.goOn fun a => within none (next a)) v
    refine ⟨⟨⟨_, begun⟩, waits, _, answered.trans rest, ?_⟩, fun f u finished => ?_⟩
    · intro y hy
      have since := rest.since y (by simpa using hy)
      exact ⟨after.trans since, fun later => (strictly later).trans_le since⟩
    · rw [finished] at rest
      exact ⟨after.trans rest.le, fun later => (strictly later).trans_le rest.le⟩

end Script

/-! ## What a limit gives up -/

/-- What a run waits for, if it has not finished. -/
def Progress.request? : Progress σ α → Option Request
  | .finished _ => none
  | .waiting pending => some pending.request

/-- Without a limit and with one a run goes the same way up to the world `x`. With the limit, the
request that is made there is given up at this instant, and the result is `a`; without it, that is
what the run waits for then, unless it was asked for too late. -/
structure World.Cuts (env : Environment σ) (w : World σ) (c : Nat) (free limited : Course α)
    (x : World σ) (r : Action.Request) (a : α) : Prop where
  begun : x.now ≤ c
  late : (x.await env r).isInTime c = false
  cut : limited.run env none w = (.finished a, (x.await env r).world.reach c)
  passes : w.Passes (x.await env r).world (free.run env none w).2 c
    (Underway.comesBy (x.await env r).due (some c) = false)
  after : ∀ b u, free.run env none w = (.finished b, u) →
    c ≤ u.now ∧ (Underway.comesBy (x.await env r).due (some c) = false → c < u.now)
  waits : Underway.comesBy (x.await env r).due (some c) = false →
    (free.run env (some c) w).1.request? = some (.act r none) ∧
      (free.run env (some c) w).2 = (x.await env r).world

namespace World.Cuts

variable {β γ : Type} {env : Environment σ} {w v x : World σ} {c : Nat} {r : Action.Request}
  {free limited : Course α} {a : α}

/-- A request that is late is given up. -/
theorem of_late (next : r.Answer → Routine Action.stage β) (le : w.now ≤ c)
    (late : (w.await env r).isInTime c = false) :
    w.Cuts env c (within none (.ask r next)) (within (some c) (.ask r next)) w r
      (.ofGiveUp (w.await env r).onGiveUp) where
  begun := le
  late := late
  cut := within_run_of_late le late
  passes := (passes_of_late next le late).1
  after := (passes_of_late next le late).2
  waits later := by
    have begun : w.begin env (.act r none) = w.await env r := w.act_none env r
    simp [within, Course.run, begun, later, Progress.request?]

/-- What is given up later on is given up. -/
theorem of_leads {free' limited' : Course α} {ys : List (Nat × Call)} (leads : w.Leads v ys)
    (goesOn : free.run env none w = free'.run env none v)
    (goesOn' : free.run env (some c) w = free'.run env (some c) v)
    (within : limited.run env none w = limited'.run env none v)
    (h : v.Cuts env c free' limited' x r a) : w.Cuts env c free limited x r a where
  begun := h.begun
  late := h.late
  cut := within.trans h.cut
  passes := goesOn ▸ h.passes.of_leads leads
  after b u run := h.after b u (goesOn.symm.trans run)
  waits := goesOn' ▸ h.waits

/-- What is made of the result does not matter. -/
theorem bind_done (h : w.Cuts env c free limited x r a) (f g : α → β) :
    w.Cuts env c (free >>= fun b => .done (f b)) (limited >>= fun b => .done (g b)) x r (g a) where
  begun := h.begun
  late := h.late
  cut := by
    rw [Course.run_bind, h.cut]
    rfl
  passes := (Course.run_bind_done_world env none free f w).symm ▸ h.passes
  after b u run := by
    obtain ⟨b', u', ends, last⟩ := Course.run_bind_finished_iff.1 run
    obtain ⟨-, rfl⟩ := Prod.mk.inj last
    exact h.after b' u' ends
  waits later := by
    obtain ⟨request, world⟩ := h.waits later
    rw [Course.run_bind_done_world, Course.run_bind]
    refine ⟨?_, world⟩
    rcases run : free.run env (some c) w with ⟨b | pending, u⟩
    · rw [run] at request
      cases request
    · rw [run] at request
      exact request

/-- The result is late, or what is given up has been asked for too late. -/
theorem late_cases (h : w.Cuts env c free limited x r a) :
    (∀ b u, free.run env none w = (.finished b, u) → c < u.now) ∨
      x.now = c ∧ (x.await env r).atOnce = false :=
  (Underway.late_cases h.begun h.late).imp_left fun later b u run => (h.after b u run).2 later

/-- Unless it was asked for too late, what is given up comes later. -/
theorem comesLater (h : w.Cuts env c free limited x r a)
    (soon : x.now < c ∨ (x.await env r).atOnce = true) :
    Underway.comesBy (x.await env r).due (some c) = false := by
  obtain later | ⟨here, slow⟩ := Underway.late_cases h.begun h.late
  · exact later
  · simp [here, slow] at soon

end World.Cuts

/-- No limit had to do with this fate. -/
def Fate.isOwn : Fate α → Bool
  | .answered _ | .panicked _ => true
  | .cut | .crashed _ => false

/-- The request for whose answer a script waits when an instant is over, and the world in which it
asks for that. -/
def World.awaitedAt (env : Environment σ) (c : Nat) :
    Routine Action.stage α → World σ → Option (World σ × Action.Request)
  | .done _, _ => none
  | .ask r next, w =>
    if (w.await env r).isInTime c then
      match (w.await env r).finish ((w.await env r).world.reach ((w.await env r).due.getD 0)) with
      | (.answered a, v) => awaitedAt env c (next a) v
      | _ => none
    else some (w, r)

section

variable {env : Environment σ} {w v : World σ} {c t : Nat} {r : Action.Request}
  {next : r.Answer → Routine Action.stage α}

theorem World.awaitedAt_of_late (late : (w.await env r).isInTime c = false) :
    awaitedAt env c (.ask r next) w = some (w, r) := by
  simp [awaitedAt, late]

theorem World.awaitedAt_of_answered (inTime : (w.await env r).isInTime c = true)
    (due : (w.await env r).due = some t) {a : r.Answer}
    (answer : (w.await env r).finish ((w.await env r).world.reach t) = (.answered a, v)) :
    awaitedAt env c (.ask r next) w = awaitedAt env c (next a) v := by
  simp [awaitedAt, inTime, due, answer]

theorem World.awaitedAt_of_panicked (inTime : (w.await env r).isInTime c = true)
    (due : (w.await env r).due = some t) {q : Panic}
    (answer : (w.await env r).finish ((w.await env r).world.reach t) = (.panicked q, v)) :
    awaitedAt env c (.ask r next) w = none := by
  simp [awaitedAt, inTime, due, answer]

end

/-- A script without a limit is over by an instant with a limit just as it is, or the request that
is then under way is given up. -/
theorem within_run_cases (env : Environment σ) (q : Routine Action.stage α) {w : World σ} {c : Nat}
    (le : w.now ≤ c) :
    (World.awaitedAt env c q w = none ∧ ∃ f u,
      (within none q).run env none w = (.finished f, u) ∧ u.now ≤ c ∧ f.isOwn ∧
      (within (some c) q).run env none w = (.finished f, u)) ∨
    ∃ (x : World σ) (r : Action.Request), World.awaitedAt env c q w = some (x, r) ∧
      w.Cuts env c (within none q) (within (some c) q) x r
        (.ofGiveUp (x.await env r).onGiveUp) := by
  induction q generalizing w with
  | done a => exact .inl ⟨rfl, _, w, rfl, le, rfl, rfl⟩
  | ask r next ih =>
    cases inTime : (w.await env r).isInTime c with
    | false => exact .inr ⟨w, r, World.awaitedAt_of_late inTime, .of_late next le inTime⟩
    | true =>
      obtain ⟨t, due, early, -⟩ := Underway.isInTime_iff.1 inTime
      obtain ⟨x, v, answer⟩ : ∃ x v, (w.await env r).finish
          ((w.await env r).world.reach t) = (x, v) := ⟨_, _, rfl⟩
      have comes : Underway.comesBy (some t) (some c) = true := by
        simpa [Underway.comesBy] using early
      have free : w.act env none r = w.await env r := w.act_none env r
      have limited : w.act env (some c) r = w.await env r :=
        (World.act_of_inTime le inTime).trans free
      have begun := World.begin_leads env w (.act r none)
      rw [World.begin, free] at begun
      obtain ⟨answered, instant⟩ : (w.await env r).world.Leads v [] ∧ v.now = max w.now t := by
        rw [← free] at answer ⊢
        exact World.leads_of_answer answer
      have soon : v.now ≤ c := instant.trans_le (Nat.max_le.2 ⟨le, early⟩)
      have goesOn {cutoff limit : Option Nat} (same : w.act env cutoff r = w.await env r)
          (comes : Underway.comesBy (some t) limit = true) :
          (within cutoff (.ask r next)).run env limit w =
            (x.goOn fun a => within cutoff (next a)).run env limit v := by
        rw [← same] at due answer
        exact within_run_of_comes next due comes answer
      obtain ⟨a, fate⟩ | ⟨q, fate⟩ :=
        World.answer_of_await env w ((w.await env r).world.reach t) due
      · obtain rfl : x = .answered a := (congrArg Prod.fst answer).symm.trans fate
        rw [World.awaitedAt_of_answered inTime due answer]
        obtain ⟨done, f, u, unlimited, soon, own, within⟩ | ⟨y, r', waits, cuts⟩ := ih a soon
        · exact .inl ⟨done, f, u, (goesOn free rfl).trans unlimited, soon, own,
            (goesOn limited rfl).trans within⟩
        · exact .inr ⟨y, r', waits, cuts.of_leads (begun.trans answered) (goesOn free rfl)
            (goesOn free comes) (goesOn limited rfl)⟩
      · obtain rfl : x = .panicked q := (congrArg Prod.fst answer).symm.trans fate
        exact .inl ⟨World.awaitedAt_of_panicked inTime due answer, _, v, goesOn free rfl, soon, rfl,
          goesOn limited rfl⟩

/-! ## One step -/

namespace Policy

/-- The policy with another limit for each step. -/
def withLimit (p : Policy) (limit : Option Span) : Policy := { p with limit }

/-- The policy without a limit. -/
abbrev unlimited (p : Policy) : Policy := p.withLimit none

/-- The policy with a limit of so many milliseconds for each step. -/
abbrev limited (p : Policy) (ms : Nat) : Policy := p.withLimit (some (.ofMillis ms))

/-- A step that is begun in this world takes longer than so many milliseconds. -/
def Overruns (p : Policy) (env : Environment σ) (s : Step) (v : World σ) (ms : Nat) : Prop :=
  ∀ r u, (p.execute s).run env none v = (.finished r, u) → v.now + ms < u.now

variable {p : Policy} {env : Environment σ} {s : Step} {v : World σ} {ms : Nat}

/-- A limit does not show in the result of a script that ended on its own. -/
theorem result_of_isOwn (p : Policy) (name : String) {f : Fate (Except Error Outcome)}
    (own : f.isOwn) : ∃ r, ∀ limit, (p.withLimit limit).result name f = .ok r := by
  rcases f with (e | outcome) | q | - | q
  · exact ⟨_, fun _ => rfl⟩
  · exact ⟨_, fun _ => rfl⟩
  · exact ⟨_, fun _ => rfl⟩
  · cases own
  · cases own

theorem run_execute_of_unprepared {r : StepResult} (unprepared : p.prepare s = .error r)
    (limit : Option Span) :
    ((p.withLimit limit).execute s).run env none v = (.finished (.ok r), v) := by
  rw [execute_of_unprepared (p := p.withLimit limit) unprepared]
  rfl

theorem run_execute_of_prepared {d : Definition} {ps : Params}
    (prepared : p.prepare s = .ok (d, ps)) (limit : Option Span) :
    ((p.withLimit limit).execute s).run env none v =
      (within (limit.map (Clock.wake v.now)) (d.behavior.script p.settings ps).run >>= fun f =>
        .done ((p.withLimit limit).result d.name f)).run env none v := by
  rw [execute_of_prepared (p := p.withLimit limit) prepared]
  exact Course.run_now_bind ..

/-- Without a limit, the same holds up to any instant that has not passed. -/
theorem run_execute_of_prepared_by {d : Definition} {ps : Params}
    (prepared : p.prepare s = .ok (d, ps)) {c : Nat} (le : v.now ≤ c) :
    (p.unlimited.execute s).run env (some c) v =
      (within none (d.behavior.script p.settings ps).run >>= fun f =>
        .done (p.unlimited.result d.name f)).run env (some c) v := by
  rw [execute_of_prepared (p := p.unlimited) prepared]
  exact Course.run_now_bind_of_le env _ le

/-- The request for whose answer a step waits when so many milliseconds are over, and the world in
which it asks for that. -/
def awaited (p : Policy) (env : Environment σ) (s : Step) (v : World σ) (ms : Nat) :
    Option (World σ × Action.Request) :=
  match p.prepare s with
  | .error _ => none
  | .ok (d, ps) => World.awaitedAt env (v.now + ms) (d.behavior.script p.settings ps).run v

/-- A step is executed in time as without a limit, or what it waits for is given up. -/
theorem run_execute_cases (p : Policy) (env : Environment σ) (s : Step)
    (fits : Clock.fits v.now (.ofMillis ms)) :
    (p.awaited env s v ms = none ∧ ∃ r u,
      (p.unlimited.execute s).run env none v = (.finished (.ok r), u) ∧ u.now ≤ v.now + ms ∧
      ((p.limited ms).execute s).run env none v = (.finished (.ok r), u)) ∨
    ∃ (d : Definition) (x : World σ) (r : Action.Request), p.registry.lookup s.action = .ok d ∧
      p.awaited env s v ms = some (x, r) ∧
      v.Cuts env (v.now + ms) (p.unlimited.execute s) ((p.limited ms).execute s) x r
        ((p.limited ms).result d.name (.ofGiveUp (x.await env r).onGiveUp)) := by
  unfold awaited
  cases prepared : p.prepare s with
  | error r =>
    exact .inl ⟨rfl, r, v, run_execute_of_unprepared prepared none, Nat.le_add_right ..,
      run_execute_of_unprepared prepared _⟩
  | ok action =>
    obtain ⟨d, ps⟩ := action
    have le := Nat.le_add_right v.now ms
    have instant : Clock.wake v.now (.ofMillis ms) = v.now + ms := by
      simp [Clock.wake_of_fits fits]
    have free : (p.unlimited.execute s).run env none v = _ := run_execute_of_prepared prepared none
    have limited : ((p.limited ms).execute s).run env none v = _ :=
      run_execute_of_prepared prepared (some (.ofMillis ms))
    rw [Option.map_some, instant] at limited
    obtain ⟨done, f, u, ends, soon, own, same⟩ | ⟨x, r, waits, cuts⟩ :=
      within_run_cases env (d.behavior.script p.settings ps).run le
    · obtain ⟨res, ok⟩ := p.result_of_isOwn d.name own
      rw [free, limited]
      simp only [Course.run_bind_finished_iff]
      exact .inl ⟨done, res, u, ⟨f, u, ends, by rw [ok]; rfl⟩, soon, f, u, same, by rw [ok]; rfl⟩
    · refine .inr ⟨d, x, r, lookup_of_prepared prepared, waits, ?_⟩
      exact (cuts.bind_done (p.unlimited.result d.name) ((p.limited ms).result d.name)).of_leads
        (.refl v) free (run_execute_of_prepared_by prepared le) limited

theorem run_execute_of_awaited_none (fits : Clock.fits v.now (.ofMillis ms))
    (done : p.awaited env s v ms = none) :
    ∃ r u, (p.unlimited.execute s).run env none v = (.finished (.ok r), u) ∧ u.now ≤ v.now + ms ∧
      ((p.limited ms).execute s).run env none v = (.finished (.ok r), u) := by
  obtain ⟨-, inTime⟩ | ⟨d, x, r, -, waits, -⟩ := p.run_execute_cases env s fits
  · exact inTime
  · simp [done] at waits

theorem cuts_of_awaited {x : World σ} {r : Action.Request} (fits : Clock.fits v.now (.ofMillis ms))
    (waits : p.awaited env s v ms = some (x, r)) : ∃ d, p.registry.lookup s.action = .ok d ∧
      v.Cuts env (v.now + ms) (p.unlimited.execute s) ((p.limited ms).execute s) x r
        ((p.limited ms).result d.name (.ofGiveUp (x.await env r).onGiveUp)) := by
  obtain ⟨done, -⟩ | ⟨d, x, r, found, waits', cuts⟩ := p.run_execute_cases env s fits
  · simp [done] at waits
  · obtain ⟨rfl, rfl⟩ := Prod.mk.inj (Option.some.inj (waits'.symm.trans waits))
    exact ⟨d, found, cuts⟩

/-! ## All steps -/

/-- The step after these turns is begun in this world. -/
structure Begins (p : Policy) (env : Environment σ) (steps : List Step) (w : World σ)
    (ts : List (Turn σ)) (s : Step) (v : World σ) : Prop where
  past : ∃ rest, p.Past env 1 steps w ts (s :: rest) v
  live : v.isCancelled = false

variable {k : Nat} {steps rest : List Step} {w : World σ} {ts : List (Turn σ)}

/-- Steps that are executed in time leave the tour as it is. -/
theorem tour_of_inTime (k : Nat) (steps : List Step) (w : World σ)
    (inTime : ∀ ts s rest v, p.unlimited.Past env k steps w ts (s :: rest) v →
      v.isCancelled = false →
      Clock.fits v.now (.ofMillis ms) ∧ p.awaited env s v ms = none) :
    (p.limited ms).tour env k steps w = p.unlimited.tour env k steps w ∧
      ∃ h, (p.unlimited.tour env k steps w).halt = some h ∧ h.panic? = none := by
  induction steps generalizing k w with
  | nil => exact ⟨rfl, .finished, rfl, rfl⟩
  | cons s rest ih =>
    cases cancelled : w.isCancelled with
    | true =>
      rw [tour_of_cancelled cancelled, tour_of_cancelled cancelled]
      exact ⟨rfl, .cancelled, rfl, rfl⟩
    | false =>
      obtain ⟨fits, done⟩ := inTime [] s rest w (.here ..) cancelled
      obtain ⟨r, v, free, -, bound⟩ := run_execute_of_awaited_none fits done
      cases stops : p.stops r with
      | true =>
        rw [tour_of_stops cancelled free stops, tour_of_stops cancelled bound stops]
        exact ⟨rfl, .stopped, rfl, rfl⟩
      | false =>
        rw [tour_of_goesOn cancelled free stops, tour_of_goesOn cancelled bound stops]
        obtain ⟨same, h, halts, calm⟩ := ih (k + 1) v fun ts s' rest' v' past =>
          inTime _ s' rest' v' (.turn cancelled free stops past)
        exact ⟨congrArg (Tour.following _) same, h, halts, calm⟩

/-- Turns that were over in time are taken with a limit too. -/
theorem Past.withLimit (past : p.unlimited.Past env k steps w ts rest v)
    (fits : Clock.fits v.now (.ofMillis ms))
    (inTime : ∀ t ∈ ts, p.awaited env t.step t.before ms = none) :
    (p.limited ms).Past env k steps w ts rest v := by
  induction past with
  | here => exact .here ..
  | @turn k s steps rest w v u r ts live run goesOn later ih =>
    obtain ⟨xs, after⟩ := later.leads
    obtain ⟨ys, during⟩ := Course.run_leads env none (p.unlimited.execute s) w
    rw [run] at during
    obtain ⟨done, rest⟩ := List.forall_mem_cons.1 inTime
    obtain ⟨r', v', free, -, bound⟩ :=
      run_execute_of_awaited_none (Clock.fits_of_le fits (during.le.trans after.le)) done
    obtain ⟨⟨⟩, rfl⟩ := Prod.mk.inj (run.symm.trans free)
    exact .turn live bound goesOn (ih fits rest)

/-- What is recorded of a step that took too long. -/
def overtime (name : String) (limit : Span) : String :=
  "ActionRuntimeFailure: action '" ++ name ++ "' could not complete: step did not finish within " ++
    limit.seconds.fixed 1 ++ "s"

theorem describe_overtime (name secs : String) :
    (Error.actionRuntimeFailure name s!"step did not finish within {secs}s").describe =
      "ActionRuntimeFailure: action '" ++ name ++
        "' could not complete: step did not finish within " ++ secs ++ "s" := by
  have head : "ActionRuntimeFailure" ++ ": " ++ "action '" = "ActionRuntimeFailure: action '" := by
    simp
  have middle : "' could not complete: " ++ "step did not finish within " =
      "' could not complete: step did not finish within " := by simp
  calc
    _ = "ActionRuntimeFailure" ++ ": " ++ ("action '" ++ name ++ "' could not complete: " ++
        ("step did not finish within " ++ secs ++ "s")) := rfl
    _ = _ := by
      rw [← head, ← middle]
      simp only [String.append_assoc]

/-- A script that is cut off leaves its step with a failure after which no other one is executed. -/
theorem result_cut (p : Policy) (name : String) (d : Span) :
    ∃ res, (p.withLimit (some d)).result name .cut = .ok res ∧
      (p.withLimit (some d)).stops res = true ∧ res.recorded = (.failure, overtime name d) :=
  ⟨_, rfl, rfl, congrArg (Prod.mk _) (describe_overtime name _)⟩

section Cuts

variable {x : World σ} {r : Action.Request} {d : Definition} {result : Except Panic StepResult}

/-- A step that is cut off is the last one. -/
theorem tour_of_cuts (k : Nat) (rest : List Step) (live : v.isCancelled = false)
    (cuts : v.Cuts env (v.now + ms) (p.unlimited.execute s) ((p.limited ms).execute s) x r
      ((p.limited ms).result d.name .cut)) :
    ∃ t : Turn σ,
      t.entry = ⟨k, s.action, .failure, overtime d.name (.ofMillis ms), .ofMillis ms⟩ ∧
      (p.limited ms).tour env k (s :: rest) v =
        ⟨[t], some .stopped, (x.await env r).world.reach (v.now + ms)⟩ := by
  obtain ⟨res, ok, stops, recorded⟩ := p.result_cut d.name (.ofMillis ms)
  refine ⟨⟨k, s, res, v, _⟩, ?_, tour_of_stops live (ok ▸ cuts.cut) stops⟩
  have instant : ((x.await env r).world.reach (v.now + ms)).now = v.now + ms :=
    Nat.max_eq_right cuts.passes.inTime
  simp [Turn.entry, StepResult.entry, recorded, instant]

/-- Without a limit, a tour passes the instant at which its first step would be cut off. -/
theorem passes_of_cuts (k : Nat) (rest : List Step) (live : v.isCancelled = false)
    (cuts : v.Cuts env (v.now + ms) (p.unlimited.execute s) ((p.limited ms).execute s) x r
      result) :
    v.Passes (x.await env r).world (p.unlimited.tour env k (s :: rest) v).world (v.now + ms)
      (Underway.comesBy (x.await env r).due (some (v.now + ms)) = false) := by
  have passes := cuts.passes
  cases run : (p.unlimited.execute s).run env none v with
  | mk progress z =>
    rw [run] at passes
    cases progress with
    | waiting _ =>
      rw [tour_of_waiting live run]
      exact passes
    | finished res =>
      obtain ⟨ys, later⟩ := tour_leads_of_finished k rest live run
      obtain ⟨after, strictly⟩ := cuts.after _ _ run
      exact passes.leads after strictly later

end Cuts

/-- **A limit does not show in what is over by then and cuts what is not.** A step is over by its
limit unless it takes longer, or asks at the last instant for what is not there at once. When every
step is over, a run with the limit goes as without it, to the same log and through the same worlds.
The first step that is not is cut off as the limit is over, and the run with it: until the request
for which it waits then the calls are the same, and the log holds the entries of the steps before
and a failure, and is aborted. -/
theorem limit_cuts_overruns {σ : Type} (p : Policy) (env : Environment σ) (steps : List Step)
    (w : World σ) (ms : Nat) :
    (∀ s v, Clock.fits v.now (.ofMillis ms) →
      (p.awaited env s v ms = none → ∃ r u,
        (p.unlimited.execute s).run env none v = (.finished (.ok r), u) ∧ u.now ≤ v.now + ms) ∧
      ∀ x r, p.awaited env s v ms = some (x, r) →
        p.unlimited.Overruns env s v ms ∨ x.now = v.now + ms ∧ (x.await env r).atOnce = false) ∧
    ((∀ ts s v, p.unlimited.Begins env steps w ts s v →
        Clock.fits v.now (.ofMillis ms) ∧ p.awaited env s v ms = none) →
      ∃ log u, (p.unlimited.interpret steps).run env none w = (.finished (log, none), u) ∧
        ((p.limited ms).interpret steps).run env none w = (.finished (log, none), u)) ∧
    ∀ ts s v x r, p.unlimited.Begins env steps w ts s v → Clock.fits v.now (.ofMillis ms) →
      (∀ t ∈ ts, p.awaited env t.step t.before ms = none) →
      p.awaited env s v ms = some (x, r) → (x.await env r).onGiveUp = none →
      steps[ts.length]? = some s ∧
      (∀ log panic u, (p.unlimited.interpret steps).run env none w =
        (.finished (log, panic), u) → ts.map Turn.entry <+: log.entries) ∧
      ∃ (d : Definition) (u : World σ) (later : List (Nat × Call)),
        p.registry.lookup s.action = .ok d ∧
        u = (x.await env r).world.reach (v.now + ms) ∧ u.now = v.now + ms ∧
        ((p.limited ms).interpret steps).run env none w =
          (.finished ({ entries := ts.map Turn.entry ++ [⟨ts.length + 1, s.action, .failure,
            overtime d.name (.ofMillis ms), .ofMillis ms⟩], aborted := true }, none), u) ∧
        w.callsSince ((p.unlimited.interpret steps).run env none w).2 =
          w.callsSince u ++ later ∧
        (∀ y ∈ w.callsSince u, y.1 ≤ v.now + ms) ∧ (∀ y ∈ later, v.now + ms ≤ y.1) ∧
        (x.now < v.now + ms ∨ (x.await env r).atOnce = true →
          (∀ y ∈ later, v.now + ms < y.1) ∧
          ((p.unlimited.execute s).run env (some (v.now + ms)) v).1.request? =
            some (.act r none) ∧
          ((p.unlimited.execute s).run env (some (v.now + ms)) v).2 = (x.await env r).world) := by
  refine ⟨fun s v fits => ⟨fun done => ?_, fun x r waits => ?_⟩, fun inTime => ?_,
    fun ts s v x r begins fits done waits calm => ?_⟩
  · obtain ⟨r, u, free, soon, -⟩ := run_execute_of_awaited_none fits done
    exact ⟨r, u, free, soon⟩
  · obtain ⟨d, -, cuts⟩ := cuts_of_awaited fits waits
    exact cuts.late_cases
  · obtain ⟨same, h, halts, calm⟩ := tour_of_inTime 1 steps w
      fun ts s rest v past live => inTime ts s v ⟨⟨rest, past⟩, live⟩
    have tour : p.unlimited.tour env 1 steps w = ⟨_, some h, _⟩ :=
      congrArg (fun h => Tour.mk _ h _) halts
    rw [run_interpret_of_tour tour, run_interpret_of_tour (same.trans tour), calm]
    exact ⟨_, _, rfl, rfl⟩
  · obtain ⟨rest, past⟩ := begins.past
    obtain ⟨xs, before⟩ := past.leads
    obtain ⟨d, found, cuts⟩ := cuts_of_awaited fits waits
    rw [calm, Fate.ofGiveUp] at cuts
    have passes := (passes_of_cuts (1 + ts.length) rest begins.live cuts).of_leads before
    obtain ⟨later, calls, early, after, strictly⟩ := passes.callsSince
    obtain ⟨t, entry, tour⟩ := tour_of_cuts (1 + ts.length) rest begins.live cuts
    refine ⟨by simp [past.steps_eq], fun log panic u run => ?_, d, _, later, found, rfl,
      Nat.max_eq_right passes.inTime, ?_, ?_, early, after, fun soon => ?_⟩
    · rw [entries_of_run_interpret run, past.tour_eq]
      simp [Tour.entries]
    · rw [run_interpret_of_tour
        ((past.withLimit fits done).tour_eq.trans (congrArg (Tour.following ts) tour)),
        List.map_append, List.map_singleton, entry, Nat.add_comm 1]
      rfl
    · rw [interpret, (p.unlimited.run_interpretFrom env 1 steps {} w).1, past.tour_eq]
      exact calls
    · exact ⟨strictly (cuts.comesLater soon), cuts.waits (cuts.comesLater soon)⟩

/-- A key press of a rehearsal goes in half a second as without a limit of one second. When the
device takes longer to answer, it is cut off. -/
theorem limit_cuts_overruns_keyPress : ∃ (log log' : Log) (u u' : World Rehearsal.State)
    (name : String),
    ((({} : Policy).limited 1000).interpret keyPress.steps).run
      (Rehearsal.environment .deserted {}) none { outside := {} } = (.finished (log, none), u) ∧
    (({} : Policy).unlimited.interpret keyPress.steps).run
      (Rehearsal.environment .deserted {}) none { outside := {} } = (.finished (log, none), u) ∧
    ((({} : Policy).limited 1000).interpret keyPress.steps).run
      (Rehearsal.environment .deserted {}) none
      { outside := { screen := { faults := [⟨.only 0, .delays 1500⟩] } } } =
        (.finished (log', none), u') ∧
    log' = { entries := [⟨1, "pressKey", .failure, overtime name (.ofMillis 1000),
      .ofMillis 1000⟩], aborted := true } ∧ u'.now = 1000 := by
  let env := Rehearsal.environment .deserted {}
  let step : Step := { action := "pressKey", params := [("key", .str "HOME")] }
  let calm : World Rehearsal.State := { outside := {} }
  let slow : World Rehearsal.State :=
    { outside := { screen := { faults := [⟨.only 0, .delays 1500⟩] } } }
  have soon : (({} : Policy).awaited env step calm 1000).isNone = true := by decide +kernel
  have late : (({} : Policy).awaited env step slow 1000).any
      (fun (x, r) => (x.await env r).onGiveUp.isNone) = true := by decide +kernel
  obtain ⟨⟨x, r⟩, waits, gently⟩ := (Option.any_eq_true _ _).1 late
  obtain ⟨-, transparent, -⟩ := limit_cuts_overruns {} env [step] calm 1000
  obtain ⟨-, -, cuts⟩ := limit_cuts_overruns {} env [step] slow 1000
  obtain ⟨log, u, free, bound⟩ := transparent fun ts s v begins => by
    obtain ⟨⟨rest, past⟩, live⟩ := begins
    cases past with
    | here => exact ⟨by decide +kernel, Option.isNone_iff_eq_none.1 soon⟩
    | turn _ _ _ later => cases later
  have begins : ({} : Policy).unlimited.Begins env [step] slow [] step slow :=
    ⟨⟨[], .here ..⟩, rfl⟩
  obtain ⟨-, -, d, u', -, -, -, instant, cut, -⟩ := cuts [] step slow x r begins
    (by decide +kernel) (by simp) waits (Option.isNone_iff_eq_none.1 gently)
  exact ⟨log, _, u, u', d.name, bound, free, cut, rfl, instant⟩

/-- A limit shows when it is met exactly by a step that still has something to store. Here the
device shows its picture in the last millisecond, and the file is not written in time. -/
theorem limit_shows_at_tie : ¬ ∀ (p : Policy) (env : Environment Rehearsal.State)
    (steps : List Step) (w : World Rehearsal.State) (ms : Nat),
    (∀ ts s v, p.unlimited.Begins env steps w ts s v →
      Clock.fits v.now (.ofMillis ms) ∧ ¬ p.unlimited.Overruns env s v ms) →
    ∃ log u u', (p.unlimited.interpret steps).run env none w = (.finished (log, none), u) ∧
      ((p.limited ms).interpret steps).run env none w = (.finished (log, none), u') := by
  intro unseen
  let env := Rehearsal.environment .deserted {}
  let step : Step := { action := "screenshot", params := [("filename", .str "home.png")] }
  let slow : World Rehearsal.State :=
    { outside := { screen := { faults := [⟨.only 0, .delays 1000⟩] } } }
  have soon : ((({} : Policy).unlimited.execute step).run env none slow).1.result?.isSome ∧
      ((({} : Policy).unlimited.execute step).run env none slow).2.now ≤ 1000 := by
    decide +kernel
  have saved : (({} : Policy).unlimited.interpret [step]).run env none slow |>.1.result?.any
      (fun out => !out.1.aborted) := by decide +kernel
  have cut : ((({} : Policy).limited 1000).interpret [step]).run env none slow |>.1.result?.any
      (fun out => out.1.aborted) := by decide +kernel
  obtain ⟨log, u, u', free, bound⟩ := unseen {} env [step] slow 1000 fun ts s v begins => by
    obtain ⟨⟨rest, past⟩, live⟩ := begins
    cases past with
    | here =>
      refine ⟨by decide +kernel, fun overruns => ?_⟩
      obtain ⟨r, result⟩ := Option.isSome_iff_exists.1 soon.1
      have late := overruns r _ (Prod.ext (Progress.result?_eq_some_iff.1 result) rfl)
      exact absurd soon.2 (Nat.not_le.2 (by simpa using late))
    | turn _ _ _ later => cases later
  simp [free, bound, Progress.result?] at saved cut
  simp [saved] at cut

end Policy

end UiRunner.Run
