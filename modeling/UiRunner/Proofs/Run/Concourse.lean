import Mathlib.Data.List.Induction
import UiRunner.Proofs.Run.Protocol
import UiRunner.Proofs.Run.Release
import UiRunner.Run.Concourse

/-!
# Invariants of runs beside each other

Every run of a concourse is midway through its course, in a phase of the slot protocol, and the
phases of all runs stay orderly, whatever happens next. A run that is not admitted touches nothing
of the world, so its events can be left out of the play.
-/
namespace UiRunner.Run

open Session Routine

variable {ι σ α : Type}

/-! ## Phases and traces -/

namespace Phase

variable {t : Trace} {φ : Phase}

theorem opens_snoc_iff {x : Exchange} {id : SessionId} : Opens (t ++ [x]) id ↔
    Opens t id ∨ ∃ config : Config, x = ⟨.connect config, .ok (.ok id)⟩ := by
  simp [Opens, exists_or, eq_comm]

/-- What a phase tells of the trace before it. -/
def Tells (t : Trace) : Phase → Prop
  | .outside => (∀ b : Bool, ⟨.slot .enter, b⟩ ∉ t) ∧ ∀ id, ¬ Opens t id
  | .admitted => ⟨.slot .enter, true⟩ ∈ t ∧ ⟨.slot .enter, false⟩ ∉ t ∧ ∀ id, ¬ Opens t id
  | .opened | .holding => ⟨.slot .enter, true⟩ ∈ t ∧ ⟨.slot .enter, false⟩ ∉ t
  | .closed =>
    ⟨.slot .enter, true⟩ ∈ t ∧ ⟨.slot .enter, false⟩ ∉ t ∧ ∃ a : Except Error Unit, ⟨.quit, a⟩ ∈ t
  | .ended => ¬ (⟨.slot .enter, true⟩ ∈ t ∧ ⟨.slot .enter, false⟩ ∈ t) ∧
    ((∀ id, ¬ Opens t id) ∨ ∃ a : Except Error Unit, ⟨.quit, a⟩ ∈ t)

theorem Tells.plain {r : Request} (h : φ.Tells t) (x : r.Answer) (allowed : φ.allows r) :
    φ.Tells (t ++ [⟨r, x⟩]) := by
  cases r with
  | connect | quit | slot => cases allowed
  | act | check | settle | now | cancelled => cases φ <;> simp_all [Tells, opens_snoc_iff]

theorem Path.tells (path : Path .outside t φ) : φ.Tells t := by
  induction path with
  | here => simp [Tells, Opens]
  | @step t x ψ χ _ step ih =>
    cases step with
    | enter | turnAway | connect | noConnection | refuse | abandon | vacate =>
      simp_all [Tells, opens_snoc_iff]
    | conclude | quit => simp_all [Tells]
    | markFailed => cases ψ <;> simp_all [Tells, opens_snoc_iff]
    | plain _ x allowed => exact ih.plain x allowed

/-- Between the opening of a session and its end a run is inside. -/
theorem Path.inside_of_opens (path : Path .outside t φ) {id : SessionId} (opens : Opens t id)
    (open_ : ∀ a : Except Error Unit, ⟨.quit, a⟩ ∉ t) : φ.inside := by
  have tells := path.tells
  cases φ with
  | outside => exact absurd opens (tells.2 id)
  | ended =>
    obtain none | ⟨a, quit⟩ := tells.2
    · exact absurd opens (none id)
    · exact absurd quit (open_ a)
  | admitted | opened | holding | closed => rfl

/-- Nobody comes in who was not admitted. -/
theorem Path.outside_of_not_admitted (path : Path .outside t φ)
    (not : ⟨.slot .enter, true⟩ ∉ t) : φ.inside = false := by
  have tells := path.tells
  cases φ with
  | outside | ended => rfl
  | admitted | opened | holding | closed => exact absurd tells.1 not

/-- A run that was turned away was not admitted. -/
theorem Path.not_admitted (path : Path .outside t φ) (away : ⟨.slot .enter, false⟩ ∈ t) :
    ⟨.slot .enter, true⟩ ∉ t := by
  have tells := path.tells
  cases φ with
  | outside => exact absurd away (tells.1 false)
  | ended => exact fun admitted => tells.1 ⟨admitted, away⟩
  | admitted | opened | holding | closed => exact absurd away (by simp_all [Tells])

/-- Outside, a run looks at the clock, at its cancellation and at the gate. -/
theorem request_of_outside {P : Phase → Prop} {Q : α → Phase → Prop} {r : Request}
    {next : r.Answer → Course α} (obeys : Obeys P Q (.ask r next) φ)
    (outside : φ.inside = false) : r = .now ∨ r = .cancelled ∨ r = .slot .enter := by
  obtain ⟨x⟩ := answerable r
  obtain ⟨ψ, step, -⟩ := obeys.2 x
  cases step with
  | enter | turnAway => exact .inr (.inr rfl)
  | connect | noConnection | refuse | abandon | conclude | quit | vacate => cases outside
  | markFailed handling =>
    rw [inside_of_handling handling] at outside
    cases outside
  | plain _ _ allowed => cases φ <;> cases r <;> simp_all [allows, inside, acquiring]

end Phase

/-! ## One run among others -/

/-- A course that has come so far by the protocol. -/
structure Midway (c₀ : Course α) (t : Trace) (c : Course α) (φ : Phase) : Prop where
  reaches : Reaches c₀ t c
  path : Phase.Path .outside t φ
  obeys : RunningOut c φ

theorem Midway.step {c₀ : Course α} {t : Trace} {r : Request} {next : r.Answer → Course α}
    {φ : Phase} (h : Midway c₀ t (.ask r next) φ) (x : r.Answer) :
    ∃ ψ, φ.Step ⟨r, x⟩ ψ ∧ Midway c₀ (t ++ [⟨r, x⟩]) (next x) ψ := by
  obtain ⟨ψ, step, rest⟩ := h.obeys.2 x
  exact ⟨ψ, step, h.reaches.snoc x, .step h.path step, rest⟩

namespace Task

variable {env : Environment σ} {c₀ : Course α} {φ : Phase} {t t' : Task σ α} {w w' : World σ}

/-- A task that has come from a course by the protocol. What it waits for was begun in some
world. -/
inductive Keeps (env : Environment σ) (c₀ : Course α) (φ : Phase) : Task σ α → Prop where
  | ready {c : Course α} {xs : Trace} (cancelAt : Option Nat) :
      Midway c₀ xs c φ → Keeps env c₀ φ ⟨.ready c, cancelAt, xs⟩
  | waiting {r : Request} {next : r.Answer → Course α} {xs : Trace} (v : World σ)
      (due cancelAt : Option Nat) : Midway c₀ xs (.ask r next) φ →
      Keeps env c₀ φ ⟨.waiting ⟨r, due, (v.begin env r).finish, next⟩, cancelAt, xs⟩

theorem Keeps.path (h : t.Keeps env c₀ φ) : Phase.Path .outside t.trace φ := by
  cases h with
  | ready _ midway => exact midway.path
  | waiting _ _ _ midway => exact midway.path

theorem Keeps.cancel (h : t.Keeps env c₀ φ) (w : World σ) : (t.cancel w).Keeps env c₀ φ := by
  cases h with
  | ready _ midway => exact .ready _ midway
  | waiting v due _ midway => exact .waiting v due _ midway

/-- A move begins a request, or it is an exchange that the phase allows. -/
theorem Keeps.move (h : t.Keeps env c₀ φ) (move : t.move env w = some (t', w')) :
    (t'.Keeps env c₀ φ ∧ w'.slot = w.slot ∧ t'.trace = t.trace) ∨
      ∃ x ψ, t'.Keeps env c₀ ψ ∧ φ.Step x ψ ∧ SlotStep w.slot x w'.slot ∧
        t'.trace = t.trace ++ [x] := by
  cases h with
  | @ready c xs cancelAt midway =>
    cases c with
    | done a => simp [Task.move] at move
    | ask r next =>
      simp only [Task.move, Option.some.injEq, Prod.mk.injEq] at move
      obtain ⟨rfl, rfl⟩ := move
      exact .inl ⟨.waiting _ _ _ midway, World.begin_slot env _ r, rfl⟩
  | @waiting r next xs v due cancelAt midway =>
    simp only [Task.move] at move
    split at move
    · simp only [Option.some.injEq, Prod.mk.injEq] at move
      obtain ⟨rfl, rfl⟩ := move
      obtain ⟨ψ, step, midway⟩ := midway.step ((v.begin env r).finish { w with cancelAt }).1
      exact .inr ⟨_, ψ, .ready _ midway, step, World.slotStep env v { w with cancelAt } r, rfl⟩
    · cases move

/-- A run that is not admitted leaves the world as it is. -/
theorem Keeps.world_eq (h : t.Keeps env c₀ φ) (move : t.move env w = some (t', w'))
    (not : ⟨.slot .enter, true⟩ ∉ t'.trace) : w' = w := by
  cases h with
  | @ready c xs cancelAt midway =>
    cases c with
    | done a => simp [Task.move] at move
    | ask r next =>
      simp only [Task.move, Option.some.injEq, Prod.mk.injEq] at move
      obtain ⟨rfl, rfl⟩ := move
      have outside := midway.path.outside_of_not_admitted not
      obtain rfl | rfl | rfl := Phase.request_of_outside midway.obeys outside <;> rfl
  | @waiting r next xs v due cancelAt midway =>
    simp only [Task.move] at move
    split at move
    · simp only [Option.some.injEq, Prod.mk.injEq] at move
      obtain ⟨rfl, rfl⟩ := move
      simp only [List.mem_append, List.mem_singleton, not_or] at not
      have outside := midway.path.outside_of_not_admitted not.1
      obtain rfl | rfl | rfl := Phase.request_of_outside midway.obeys outside
      · rfl
      · rfl
      · have refused : w.slot.apply .enter = (false, w.slot) := by
          have entered := not.2
          simp only [World.begin, World.immediate, Slot.apply_enter] at entered ⊢
          split at entered <;> simp_all
        simp [World.begin, World.immediate, refused]
    · cases move

end Task

/-! ## All runs -/

namespace Concourse

variable [DecidableEq ι] {env : ι → Environment σ} {course : ι → Course α}
  {c c' : Concourse ι σ α} {phase : ι → Phase} {e : Event ι} {es : List (Event ι)}

theorem play_snoc : c.play env (es ++ [e]) = (c.play env es).bind (·.step env e) := by
  simp [play, Option.bind_eq_bind]

/-- Every run keeps to the protocol, and the phases of all runs are orderly. -/
structure Kept (env : ι → Environment σ) (course : ι → Course α) (c : Concourse ι σ α)
    (phase : ι → Phase) : Prop where
  keeps : ∀ i, (c.task i).Keeps (env i) (course i) (phase i)
  orderly : Orderly c.world.slot phase

theorem Kept.put (h : Kept env course c phase) {i : ι} {t : Task σ α} {w : World σ} {ψ : Phase}
    (keeps : t.Keeps (env i) (course i) ψ) (orderly : Orderly w.slot (Function.update phase i ψ)) :
    Kept env course (c.put i t w) (Function.update phase i ψ) := by
  refine ⟨fun j => ?_, orderly⟩
  by_cases ji : j = i
  · subst ji
    simpa [Concourse.put] using keeps
  · simpa [Concourse.put, Function.update_of_ne ji] using h.keeps j

/-- One event keeps the runs orderly. -/
theorem Kept.step (h : Kept env course c phase) (step : c.step env e = some c') :
    ∃ phase', Kept env course c' phase' := by
  cases e with
  | time instant =>
    obtain rfl := Option.some.inj step
    exact ⟨phase, h.keeps, h.orderly⟩
  | cancel i =>
    obtain rfl := Option.some.inj step
    refine ⟨_, h.put ((h.keeps i).cancel c.world) ?_⟩
    rw [Function.update_eq_self]
    exact h.orderly
  | move i =>
    obtain ⟨⟨t, w⟩, move, rfl⟩ := Option.map_eq_some_iff.1 step
    obtain ⟨keeps, slot, -⟩ | ⟨x, ψ, keeps, step, slot, -⟩ := (h.keeps i).move move
    · refine ⟨_, h.put keeps ?_⟩
      rw [Function.update_eq_self, slot]
      exact h.orderly
    · exact ⟨_, h.put keeps (h.orderly.step step slot)⟩

theorem kept_of_play {w : World σ} {cancelAt : ι → Option Nat}
    (play : (start w cancelAt course).play env es = some c)
    (begins : ∀ i, RunningOut (course i) .outside) :
    ∃ phase, Kept env course c phase := by
  induction es using List.reverseRecOn generalizing c with
  | nil =>
    obtain rfl := Option.some.inj play
    exact ⟨fun _ => .outside, fun i => .ready _ ⟨.here _, .here, begins i⟩, nofun, fun _ => trivial⟩
  | append_singleton es e ih =>
    rw [play_snoc] at play
    obtain ⟨b, play, step⟩ := Option.bind_eq_some_iff.1 play
    obtain ⟨phase, kept⟩ := ih play
    exact kept.step step

/-! ## Runs that were never begun -/

theorem Kept.trace_prefix (h : Kept env course c phase) (step : c.step env e = some c') (i : ι) :
    (c.task i).trace <+: (c'.task i).trace := by
  cases e with
  | time instant =>
    obtain rfl := Option.some.inj step
    exact List.prefix_rfl
  | cancel j =>
    obtain rfl := Option.some.inj step
    by_cases ij : i = j
    · subst ij
      simp [Concourse.put, Task.cancel]
    · simp [Concourse.put, Function.update_of_ne ij]
  | move j =>
    obtain ⟨⟨t, w⟩, move, rfl⟩ := Option.map_eq_some_iff.1 step
    by_cases ij : i = j
    · subst ij
      obtain ⟨-, -, same⟩ | ⟨x, -, -, -, -, more⟩ := (h.keeps i).move move
      · simp [Concourse.put, same]
      · simp [Concourse.put, more]
    · simp [Concourse.put, Function.update_of_ne ij]

variable {runs : ι → Bool} {c₀ : Concourse ι σ α} {i : ι} {t : Task σ α} {w : World σ}

theorem put_without_of_mem (mem : runs i = true) :
    (c.put i t w).without runs c₀ = ⟨w, (c.without runs c₀).task⟩ := by
  simp only [without, Concourse.put, mk.injEq, true_and]
  funext j
  by_cases ji : j = i
  · subst ji
    simp [mem]
  · simp [Function.update_of_ne ji]

theorem put_without_of_notMem (not : runs i = false) :
    (c.put i t w).without runs c₀ = (c.without runs c₀).put i t w := by
  simp only [without, Concourse.put, mk.injEq, true_and]
  funext j
  by_cases ji : j = i
  · subst ji
    simp [not]
  · simp [Function.update_of_ne ji]

/-- What happens to a run that is not admitted leaves the others and the world alone. -/
theorem Kept.without_eq (h : Kept env course c phase) (step : c.step env e = some c')
    (of : e.isOf runs = true) (not : ∀ i, runs i → ⟨.slot .enter, true⟩ ∉ (c'.task i).trace) :
    c'.without runs c₀ = c.without runs c₀ := by
  cases e with
  | time instant => cases of
  | cancel i =>
    obtain rfl := Option.some.inj step
    exact put_without_of_mem of
  | move i =>
    obtain ⟨⟨t, w⟩, move, rfl⟩ := Option.map_eq_some_iff.1 step
    have same : w = c.world := (h.keeps i).world_eq move (by simpa [Concourse.put] using not i of)
    rw [same]
    exact put_without_of_mem of

/-- What happens to the other runs happens without these just the same. -/
theorem step_without (step : c.step env e = some c') (of : e.isOf runs = false) :
    (c.without runs c₀).step env e = some (c'.without runs c₀) := by
  cases e with
  | time instant =>
    obtain rfl := Option.some.inj step
    rfl
  | cancel i =>
    obtain rfl := Option.some.inj step
    have other : runs i = false := of
    have alone : (c.without runs c₀).task i = c.task i := if_neg (by simp [other])
    rw [put_without_of_notMem other]
    simp only [Concourse.step, alone]
    rfl
  | move i =>
    obtain ⟨⟨t, w⟩, move, rfl⟩ := Option.map_eq_some_iff.1 step
    have other : runs i = false := of
    have alone : (c.without runs c₀).task i = c.task i := if_neg (by simp [other])
    rw [put_without_of_notMem other]
    simp only [Concourse.step, alone]
    exact Option.map_eq_some_iff.2 ⟨(t, w), move, rfl⟩

/-- Runs that were not admitted may as well never have begun. -/
theorem play_filter {cancelAt : ι → Option Nat}
    (play : (start w cancelAt course).play env es = some c)
    (begins : ∀ i, RunningOut (course i) .outside)
    (not : ∀ i, runs i → ⟨.slot .enter, true⟩ ∉ (c.task i).trace) :
    (start w cancelAt course).play env (es.filter fun e => !e.isOf runs) =
      some (c.without runs (start w cancelAt course)) := by
  induction es using List.reverseRecOn generalizing c with
  | nil =>
    obtain rfl := Option.some.inj play
    simp [Concourse.play, without]
  | append_singleton es e ih =>
    rw [play_snoc] at play
    obtain ⟨b, play, step⟩ := Option.bind_eq_some_iff.1 play
    obtain ⟨phase, kept⟩ := kept_of_play play begins
    have before := ih play fun i mem enter =>
      not i mem ((kept.trace_prefix step i).subset enter)
    rw [List.filter_append]
    cases of : e.isOf runs with
    | true => simp [of, before, kept.without_eq step of not]
    | false =>
      simp only [List.filter_cons, of, Bool.not_false, ite_true, List.filter_nil]
      rw [play_snoc, before]
      exact step_without step of

end Concourse

/-! ## A run alone -/

theorem World.begin_cancelAt (env : Environment σ) (w : World σ) (r : Request) :
    (w.begin env r).world.cancelAt = w.cancelAt := by
  cases r with
  | act r cutoff =>
    rw [begin, act_world]
    cases r <;> rfl
  | check | connect | settle | quit | now | cancelled | slot => rfl

/-- A run that is driven to its end at once is one that has a concourse to itself. -/
theorem exists_play_of_run {env : Environment σ} {c : Course α} {w w' : World σ} {a : α}
    (run : c.run env none w = (.finished a, w')) (token : Option Nat) (xs : Trace) :
    ∃ es : List (Event Unit),
      Concourse.play (fun _ => env)
          ⟨{ w with cancelAt := token }, fun _ => ⟨.ready c, w.cancelAt, xs⟩⟩ es =
        some ⟨{ w' with cancelAt := token },
          fun _ => ⟨.ready (.done a), w'.cancelAt, xs ++ c.trace env none w⟩⟩ := by
  induction c generalizing w xs with
  | done b =>
    obtain ⟨⟨⟩, rfl⟩ := Prod.mk.inj run
    exact ⟨[], by simp [Concourse.play, Course.trace]⟩
  | ask r next ih =>
    obtain ⟨t, due⟩ := Course.due_of_run run
    rw [Course.run_ask_of_due due] at run
    generalize begun : w.begin env r = u at due run
    generalize came : u.finish (u.world.reach t) = y at run
    obtain ⟨es, play⟩ := ih y.1 run (xs ++ [⟨r, y.1⟩])
    refine ⟨.move () :: .time t :: .move () :: es, ?_⟩
    have first : Concourse.step (fun _ => env)
        ⟨{ w with cancelAt := token }, fun _ => ⟨.ready (.ask r next), w.cancelAt, xs⟩⟩ (.move ()) =
        some ⟨{ u.world with cancelAt := token },
          fun _ => ⟨.waiting ⟨r, u.due, u.finish, next⟩, w.cancelAt, xs⟩⟩ := by
      rw [← begun]
      rfl
    have last : Concourse.step (fun _ => env)
        ⟨{ u.world.reach t with cancelAt := token },
          fun _ => ⟨.waiting ⟨r, u.due, u.finish, next⟩, w.cancelAt, xs⟩⟩ (.move ()) =
        some ⟨{ y.2 with cancelAt := token },
          fun _ => ⟨.ready (next y.1), y.2.cancelAt, xs ++ [⟨r, y.1⟩]⟩⟩ := by
      have kept : w.cancelAt = (u.world.reach t).cancelAt := by
        rw [← begun]
        exact (World.begin_cancelAt env w r).symm
      have inTime : Underway.comesBy u.due (some (max u.world.now t)) = true := by
        simp only [due, Underway.comesBy, decide_eq_true_eq]
        exact Nat.le_max_right _ _
      rw [← came, kept]
      simp only [Concourse.step, Task.move, World.reach, inTime]
      rfl
    have trace : Course.trace env none (.ask r next) w =
        ⟨r, y.1⟩ :: Course.trace env none (next y.1) y.2 := by
      simp [Course.trace, begun, due, Underway.comesBy, came]
    rw [trace, List.append_cons, ← play]
    simp only [Concourse.play, List.foldlM_cons, first]
    exact congrArg (· >>= fun c => es.foldlM (Concourse.step fun _ => env) c) last

end UiRunner.Run
