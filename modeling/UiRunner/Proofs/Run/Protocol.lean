import Mathlib.Logic.Function.Basic
import UiRunner.Proofs.Run.Outline

/-!
# The slot protocol

A run goes through phases: it is outside, is admitted to the slot, has a session opened, holds a
handle, has ended the session and gives the slot back. `Obeys` says that a course asks for nothing
that its phase does not allow. Of runs that obey, at most one is inside, and the slot shows how far
it has come.
-/
namespace UiRunner.Run

open Session Routine

variable {α β : Type}

/-- Where a run stands towards the slot. -/
inductive Phase where
  | outside
  /-- The slot is entered. -/
  | admitted
  /-- The server has opened a session, of which there is no handle yet. -/
  | opened
  | holding
  /-- The session is ended, and its handle is still out. -/
  | closed
  | ended
deriving DecidableEq

namespace Phase

/-- Between the gate and the return of the slot. -/
def inside : Phase → Bool
  | .outside | .ended => false
  | _ => true

/-- A session is being acquired. -/
def acquiring : Phase → Bool
  | .admitted | .opened => true
  | _ => false

/-- A handle is out. -/
def handling : Phase → Bool
  | .holding | .closed => true
  | _ => false

/-- Whether a request can be made in a phase without leaving it, whatever the answer is. -/
def allows : Phase → Request → Bool
  | _, .now | _, .cancelled => true
  | φ, .check .. | φ, .settle _ => φ.acquiring
  | φ, .act .. => φ == .holding
  | _, .connect _ | _, .quit | _, .slot _ => false

/-- The exchanges that a phase allows. -/
inductive Step : Phase → Exchange → Phase → Prop where
  | enter : Step .outside ⟨.slot .enter, true⟩ .admitted
  | turnAway : Step .outside ⟨.slot .enter, false⟩ .ended
  | connect (config : Config) (id : SessionId) :
      Step .admitted ⟨.connect config, .ok (.ok id)⟩ .opened
  | noConnection (config : Config) {x : Attempt SessionId} :
      (∀ id, x ≠ .ok (.ok id)) → Step .admitted ⟨.connect config, x⟩ .admitted
  | refuse : Step .admitted ⟨.slot (.conclude .failed), ()⟩ .ended
  | abandon : Step .admitted ⟨.slot .abandon, ()⟩ .ended
  | conclude : Step .opened ⟨.slot (.conclude .active), ()⟩ .holding
  | markFailed {φ : Phase} : φ.handling → Step φ ⟨.slot .markFailed, ()⟩ φ
  | quit (a : Except Error Unit) : Step .holding ⟨.quit, a⟩ .closed
  | vacate : Step .closed ⟨.slot .vacate, ()⟩ .ended
  | plain (φ : Phase) {r : Request} (x : r.Answer) : φ.allows r → Step φ ⟨r, x⟩ φ

/-- The phases along a trace. -/
inductive Path (φ : Phase) : Trace → Phase → Prop where
  | here : Path φ [] φ
  | step {t : Trace} {x : Exchange} {ψ χ : Phase} : Path φ t ψ → Step ψ x χ → Path φ (t ++ [x]) χ

/-- What a phase shows of the slot. -/
def Shows (s : Slot) : Phase → Prop
  | .admitted | .opened => s = ⟨.validating, false⟩
  | .holding | .closed => s.live = true ∧ (s.state = .active ∨ s.state = .failed)
  | .outside | .ended => True

variable {φ ψ : Phase} {s u : Slot} {x : Exchange}

theorem handling_of_acquiring (h : φ.acquiring) : φ.handling = false := by
  cases φ <;> simp_all [acquiring, handling]

theorem inside_of_acquiring (h : φ.acquiring) : φ.inside := by
  cases φ <;> simp_all [acquiring, inside]

theorem inside_of_handling (h : φ.handling) : φ.inside := by
  cases φ <;> simp_all [handling, inside]

theorem Shows.eq_of_acquiring (h : φ.Shows s) (acquiring : φ.acquiring) :
    s = ⟨.validating, false⟩ := by
  cases φ with
  | admitted | opened => exact h
  | outside | holding | closed | ended => cases acquiring

theorem Shows.of_handling (h : φ.Shows s) (handling : φ.handling) :
    s.live = true ∧ (s.state = .active ∨ s.state = .failed) := by
  cases φ with
  | holding | closed => exact h
  | outside | admitted | opened | ended => cases handling

theorem acquiring_or_handling (h : φ.inside) : φ.acquiring ∨ φ.handling := by
  cases φ <;> simp_all [inside, acquiring, handling]

theorem Shows.not_isFree (h : φ.Shows s) (inside : φ.inside) : s.isFree = false := by
  cases φ with
  | outside | ended => cases inside
  | admitted | opened =>
    obtain rfl : s = ⟨.validating, false⟩ := h
    rfl
  | holding | closed =>
    obtain ⟨live, -⟩ := h
    simp [Slot.isFree, live]

theorem Shows.of_not_inside (h : φ.inside = false) : φ.Shows s := by
  cases φ <;> simp_all [inside, Shows]

theorem Step.now (φ : Phase) (t : Nat) : φ.Step ⟨.now, t⟩ φ := .plain φ (r := .now) t rfl

theorem Step.plain_inv {r : Request} {x : r.Answer} (slot : SlotStep s ⟨r, x⟩ u)
    (plain : φ.allows r) : u = s :=
  slot.other_inv fun op h => by simp [h, allows] at plain

/-- A step keeps a phase and the slot together. -/
theorem Step.shows (step : φ.Step x ψ) (slot : SlotStep s x u) (h : φ.Shows s) : ψ.Shows u := by
  cases step with
  | enter =>
    obtain ⟨answer, rfl⟩ := slot.op_inv
    rw [Slot.apply_enter] at answer ⊢
    split
    · rfl
    · simp_all
  | turnAway | refuse | abandon | vacate => trivial
  | connect | noConnection =>
    obtain rfl := slot.other_inv (by simp)
    exact h
  | conclude =>
    obtain ⟨-, rfl⟩ := slot.op_inv
    exact ⟨rfl, .inl rfl⟩
  | markFailed handling =>
    obtain ⟨-, rfl⟩ := slot.op_inv
    cases φ with
    | holding | closed => exact ⟨h.1, .inr rfl⟩
    | outside | admitted | opened | ended => cases handling
  | quit a =>
    obtain rfl := slot.other_inv (by simp)
    exact h
  | plain _ _ plain =>
    obtain rfl := plain_inv slot plain
    exact h

/-- Only a free slot lets a run in. -/
theorem Step.isFree (step : φ.Step x ψ) (slot : SlotStep s x u) (inside : ψ.inside) :
    φ.inside ∨ s.isFree := by
  cases step with
  | enter =>
    have answer := slot.op_inv.1
    rw [Slot.apply_enter] at answer
    split at answer
    · exact .inr ‹_›
    · cases answer
  | turnAway | refuse | abandon | vacate => cases inside
  | connect | noConnection | conclude | quit => exact .inl rfl
  | markFailed | plain => exact .inl inside

/-- A run that stays outside leaves the slot alone. -/
theorem Step.slot_eq (step : φ.Step x ψ) (slot : SlotStep s x u) :
    u = s ∨ φ.inside ∨ ψ.inside := by
  cases step with
  | turnAway =>
    obtain ⟨answer, rfl⟩ := slot.op_inv
    rw [Slot.apply_enter] at answer ⊢
    split
    · simp_all
    · exact .inl rfl
  | enter => exact .inr (.inr rfl)
  | refuse | abandon | vacate | connect | noConnection | conclude | quit => exact .inr (.inl rfl)
  | markFailed handling =>
    cases φ with
    | holding | closed => exact .inr (.inl rfl)
    | outside | admitted | opened | ended => cases handling
  | plain _ _ plain => exact .inl (plain_inv slot plain)

/-- An acquire that comes to nothing leaves the slot failed. -/
theorem Step.fails (step : φ.Step x ψ) (slot : SlotStep s x u) (h : φ.Shows s)
    (acquiring : φ.acquiring) (gone : ψ = .ended) : u = ⟨.failed, false⟩ := by
  cases step with
  | enter | turnAway | vacate | quit => cases acquiring
  | connect | noConnection | conclude => cases gone
  | refuse => exact slot.op_inv.2
  | abandon =>
    obtain ⟨-, rfl⟩ := slot.op_inv
    obtain rfl : s = ⟨.validating, false⟩ := h
    rfl
  | markFailed | plain =>
    subst gone
    cases acquiring

/-- A run that goes leaves the slot free. -/
theorem Step.leaves (step : φ.Step x ψ) (slot : SlotStep s x u) (h : φ.Shows s)
    (inside : φ.inside) (gone : ψ.inside = false) : u.isFree := by
  cases step with
  | enter | turnAway => cases inside
  | refuse =>
    obtain ⟨-, rfl⟩ := slot.op_inv
    rfl
  | abandon =>
    obtain ⟨-, rfl⟩ := slot.op_inv
    obtain rfl : s = ⟨.validating, false⟩ := h
    rfl
  | vacate =>
    obtain ⟨-, rfl⟩ := slot.op_inv
    obtain ⟨-, active | failed⟩ := h <;> simp_all [Slot.apply, Slot.vacate, Slot.isFree]
  | connect | noConnection | conclude | quit => cases gone
  | markFailed | plain => simp [inside] at gone

end Phase

/-! ## Runs beside each other -/

section Beside

variable {ι : Type} {phase : ι → Phase} {s u : Slot} {i : ι} {ψ : Phase}

/-- At most one run is inside, and the slot shows how far it has come. -/
structure Orderly (s : Slot) (phase : ι → Phase) : Prop where
  sole : ∀ i j, (phase i).inside → (phase j).inside → i = j
  shown : ∀ i, (phase i).Shows s

/-- The slot is free when no run is inside. -/
def Tidy (s : Slot) (phase : ι → Phase) : Prop :=
  (∀ i, (phase i).inside = false) → s.isFree

/-- Somebody is inside when the slot is not free. -/
theorem Tidy.exists_inside (h : Tidy s phase) (busy : s.isFree = false) :
    ∃ i, (phase i).inside := by
  by_contra none
  rw [h (by simpa using none)] at busy
  cases busy

theorem Orderly.not_inside (h : Orderly s phase) (free : s.isFree) (i : ι) :
    (phase i).inside = false := by
  by_contra inside
  rw [(h.shown i).not_isFree (by simpa using inside)] at free
  cases free

/-- The label says whether a session is being acquired. -/
theorem Orderly.validating_iff (h : Orderly s phase) (tidy : Tidy s phase) :
    s.state = .validating ↔ ∃! i, (phase i).acquiring := by
  constructor
  · intro validating
    obtain ⟨i, inside⟩ := tidy.exists_inside (by simp [Slot.isFree, validating])
    obtain acquiring | handling := Phase.acquiring_or_handling inside
    · exact ⟨i, acquiring, fun j hj => h.sole j i (Phase.inside_of_acquiring hj) inside⟩
    · obtain ⟨-, state⟩ := (h.shown i).of_handling handling
      simp [validating] at state
  · rintro ⟨i, acquiring, -⟩
    rw [(h.shown i).eq_of_acquiring acquiring]

/-- The other part of the slot says whether a handle is out. -/
theorem Orderly.live_iff (h : Orderly s phase) (tidy : Tidy s phase) :
    s.live = true ↔ ∃! i, (phase i).handling := by
  constructor
  · intro live
    obtain ⟨i, inside⟩ := tidy.exists_inside (by simp [Slot.isFree, live])
    obtain acquiring | handling := Phase.acquiring_or_handling inside
    · simp [(h.shown i).eq_of_acquiring acquiring] at live
    · exact ⟨i, handling, fun j hj => h.sole j i (Phase.inside_of_handling hj) inside⟩
  · rintro ⟨i, handling, -⟩
    exact ((h.shown i).of_handling handling).1

variable [DecidableEq ι]

/-- One run goes on: it finds a free slot if it goes in, and the others find the slot as it was
unless it was or is inside. -/
theorem Orderly.move (h : Orderly s phase) (shows : ψ.Shows u)
    (enters : ψ.inside → (phase i).inside ∨ s.isFree)
    (alone : u = s ∨ (phase i).inside ∨ ψ.inside) : Orderly u (Function.update phase i ψ) := by
  have others : ψ.inside → ∀ j ≠ i, (phase j).inside = false := by
    intro inside j ne
    by_contra other
    rw [Bool.not_eq_false] at other
    obtain before | free := enters inside
    · exact ne (h.sole j i other before)
    · rw [(h.shown j).not_isFree other] at free
      cases free
  refine ⟨fun j k hj hk => ?_, fun j => ?_⟩
  · by_cases ji : j = i <;> by_cases ki : k = i
    · rw [ji, ki]
    · subst ji
      simp_all
    · subst ki
      simp_all
    · rw [Function.update_of_ne ji] at hj
      rw [Function.update_of_ne ki] at hk
      exact h.sole j k hj hk
  · by_cases ji : j = i
    · subst ji
      simpa using shows
    · rw [Function.update_of_ne ji]
      obtain rfl | before | after := alone
      · exact h.shown j
      · refine Phase.Shows.of_not_inside ?_
        by_contra other
        exact ji (h.sole j i (by simpa using other) before)
      · exact Phase.Shows.of_not_inside (others after j ji)

theorem Tidy.move (h : Tidy s phase) (leaves : (phase i).inside → ψ.inside = false → u.isFree)
    (alone : u = s ∨ (phase i).inside ∨ ψ.inside) : Tidy u (Function.update phase i ψ) := by
  intro none
  have gone : ψ.inside = false := by simpa using none i
  cases before : (phase i).inside with
  | true => exact leaves before gone
  | false =>
    obtain rfl | before' | after := alone
    · refine h fun j => ?_
      by_cases ji : j = i
      · rw [ji, before]
      · simpa [Function.update_of_ne ji] using none j
    · simp [before] at before'
    · simp [gone] at after

variable {x : Exchange}

/-- Runs stay orderly when one of them makes a step that its phase allows. -/
theorem Orderly.step (h : Orderly s phase) (step : (phase i).Step x ψ) (slot : SlotStep s x u) :
    Orderly u (Function.update phase i ψ) :=
  h.move (step.shows slot (h.shown i)) (step.isFree slot) (step.slot_eq slot)

theorem Tidy.step (h : Tidy s phase) (orderly : Orderly s phase) (step : (phase i).Step x ψ)
    (slot : SlotStep s x u) : Tidy u (Function.update phase i ψ) :=
  h.move (step.leaves slot (orderly.shown i)) (step.slot_eq slot)

end Beside

/-! ## Courses that keep to the protocol -/

/-- The course asks for nothing that its phase does not allow, asks in phases of `P` only, and
comes to `Q`. -/
def Obeys (P : Phase → Prop) (Q : α → Phase → Prop) : Course α → Phase → Prop
  | .done a, φ => Q a φ
  | .ask r next, φ => P φ ∧ ∀ x, ∃ ψ, φ.Step ⟨r, x⟩ ψ ∧ Obeys P Q (next x) ψ

namespace Obeys

variable {P P' : Phase → Prop} {Q : α → Phase → Prop} {R : β → Phase → Prop} {φ : Phase}

theorem bind {c : Course α} {f : α → Course β} (h : Obeys P Q c φ)
    (g : ∀ a ψ, Q a ψ → Obeys P R (f a) ψ) : Obeys P R (c >>= f) φ := by
  induction c generalizing φ with
  | done a => exact g a φ h
  | ask r next ih =>
    refine ⟨h.1, fun x => ?_⟩
    obtain ⟨ψ, step, rest⟩ := h.2 x
    exact ⟨ψ, step, ih x rest⟩

theorem mono {c : Course α} (h : Obeys P Q c φ) (le : ∀ φ, P φ → P' φ) : Obeys P' Q c φ := by
  induction c generalizing φ with
  | done a => exact h
  | ask r next ih =>
    refine ⟨le φ h.1, fun x => ?_⟩
    obtain ⟨ψ, step, rest⟩ := h.2 x
    exact ⟨ψ, step, ih x rest⟩

/-- Plain requests do not change the phase. -/
theorem of_plain {c : Course α} (plain : Asks (fun r => φ.allows r) c) (phase : P φ) :
    Obeys P (fun _ ψ => ψ = φ) c φ := by
  induction c with
  | done a => rfl
  | ask r next ih => exact ⟨phase, fun x => ⟨φ, .plain φ x plain.1, ih x (plain.2 x)⟩⟩

end Obeys

/-- An acquire has a handle, or it is over. -/
def Acquired : Attempt SessionId → Phase → Prop
  | .ok (.ok _), φ => φ = .holding
  | _, φ => φ = .ended

/-- An acquire that is waited for only while the slot is its own. -/
abbrev SettingUp (c : Course (Attempt SessionId)) (φ : Phase) : Prop :=
  Obeys (fun φ => φ.acquiring) Acquired c φ

/-- A release that is waited for only while the handle is out. -/
abbrev TearingDown (c : Course Unit) (φ : Phase) : Prop :=
  Obeys (fun φ => φ.handling) (fun _ φ => φ = .ended) c φ

/-- A run that is over in the end. -/
abbrev RunningOut (c : Course α) (φ : Phase) : Prop :=
  Obeys (fun _ => True) (fun _ φ => φ = .ended) c φ

namespace Manager

variable {m : Manager} {config : Config}

theorem makeChecks_plain (cs : List Check) :
    Asks (fun r => Phase.admitted.allows r) (makeChecks config cs) := by
  induction cs with
  | nil => trivial
  | cons c rest ih =>
    refine asks_ask_bind_iff.2 ⟨rfl, fun x => ?_⟩
    rcases x with p | e | ⟨⟩
    · trivial
    · trivial
    · exact ih

/-- An acquire that was admitted. -/
def beyond (m : Manager) (config : Config) : Course (Attempt SessionId) := do
  match ← makeChecks config m.checks with
  | .error p => unwind p
  | .ok (.error e) => refuse e
  | .ok (.ok ()) => m.open_ config

theorem acquire_eq (m : Manager) (config : Config) :
    m.acquire config = .ask (.slot .enter) fun (entered : Bool) =>
      if entered then m.beyond config else .done (.ok (.error .sessionAlreadyActive)) := rfl

theorem settingUp_beyond : SettingUp (m.beyond config) .admitted := by
  have refuse : ∀ e, SettingUp (refuse e) .admitted :=
    fun e => ⟨rfl, fun _ => ⟨.ended, .refuse, rfl⟩⟩
  have unwind : ∀ p, SettingUp (unwind p) .admitted :=
    fun p => ⟨rfl, fun _ => ⟨.ended, .abandon, rfl⟩⟩
  have checks : Obeys (fun φ => φ.acquiring) (fun _ ψ => ψ = .admitted)
      (makeChecks config m.checks) .admitted := .of_plain (makeChecks_plain m.checks) rfl
  refine checks.bind fun checked φ same => ?_
  subst same
  rcases checked with p | e | ⟨⟩
  · exact unwind p
  · exact refuse e
  · refine ⟨rfl, fun x => ?_⟩
    rcases x with p | e | id
    · exact ⟨.admitted, .noConnection config (by simp), unwind p⟩
    · exact ⟨.admitted, .noConnection config (by simp), refuse e⟩
    · refine ⟨.opened, .connect config id, ?_⟩
      have conclude : SettingUp (do Course.conclude .active; pure (.ok (.ok id))) .opened :=
        ⟨rfl, fun _ => ⟨.holding, .conclude, rfl⟩⟩
      dsimp only
      split
      · exact ⟨rfl, fun _ => ⟨.opened, .plain .opened _ rfl, conclude⟩⟩
      · exact conclude

theorem acquire_obeys : Obeys (fun _ => True) Acquired (m.acquire config) .outside := by
  rw [acquire_eq]
  refine ⟨trivial, fun entered => ?_⟩
  cases entered with
  | false => exact ⟨.ended, .turnAway, rfl⟩
  | true => exact ⟨.admitted, .enter, settingUp_beyond.mono fun _ _ => trivial⟩

theorem tearingDown_release : TearingDown release .holding :=
  ⟨rfl, fun a => ⟨.closed, .quit a, rfl, fun _ => ⟨.ended, .vacate, rfl⟩⟩⟩

end Manager

namespace Orchestrator

variable {o : Orchestrator} {case : TestCase}

theorem steps_obeys (start : Nat) :
    Obeys (fun _ => True) (fun _ φ => φ = .holding) (o.steps case start) .holding := by
  have plain : Asks (fun r => Phase.holding.allows r) (o.policy.interpret case.steps) := by
    refine (Policy.interpretFrom_asks _ _ _ _).mono fun r h => ?_
    cases r <;> simp_all [Request.isOfSteps, Phase.allows]
  refine (Obeys.of_plain plain trivial).bind fun out φ same => ?_
  subst same
  obtain ⟨log, _ | p⟩ := out
  · rfl
  · exact ⟨trivial, fun _ => ⟨.holding, .markFailed rfl, trivial, fun u =>
      ⟨.holding, .now _ u, rfl⟩⟩⟩

theorem runningOut_execute : RunningOut (o.execute case) .outside := by
  refine ⟨trivial, fun start => ⟨.outside, .now _ start, ?_⟩⟩
  refine Manager.acquire_obeys.bind fun acquired φ h => ?_
  rcases acquired with p | e | id
  · exact h
  · obtain rfl : φ = .ended := h
    exact ⟨trivial, fun u => ⟨.ended, .now _ u, rfl⟩⟩
  · obtain rfl : φ = .holding := h
    refine (steps_obeys start).bind fun log φ same => ?_
    subst same
    refine (Manager.tearingDown_release.mono fun _ _ => trivial).bind fun _ φ same => ?_
    subst same
    exact ⟨trivial, fun u => ⟨.ended, .now _ u, rfl⟩⟩

end Orchestrator

end UiRunner.Run
