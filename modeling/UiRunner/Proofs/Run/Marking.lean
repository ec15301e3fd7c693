import UiRunner.Proofs.Run.Gate

/-!
# Marking a session as failed

Whoever has the manager can mark its session as failed, at any time. Outside of an acquire this
never changes whether the next acquire is turned away. While an acquire is under way the mark takes
the place of the only sign of it, and the next acquire is admitted beside the first one.
-/
namespace UiRunner.Session.Slot

variable {s : Slot}

/-- The label agrees with the handle bit. -/
structure Consistent (s : Slot) : Prop where
  live_of_active : s.state = .active → s.live = true
  not_live_of_validating : s.state = .validating → s.live = false

theorem Consistent.apply (h : s.Consistent) (op : Op) : (s.apply op).2.Consistent := by
  cases op with
  | enter =>
    rw [Run.Slot.apply_enter]
    split
    · exact ⟨by simp, fun _ => rfl⟩
    · exact h
  | conclude state => constructor <;> simp +contextual [Slot.apply, conclude]
  | abandon | markFailed => constructor <;> simp [Slot.apply, abandon, markFailed]
  | vacate =>
    simp only [Slot.apply, vacate]
    split <;> exact ⟨by simp, by simp⟩

theorem Consistent.step {u : Slot} {x : Run.Exchange} (h : s.Consistent)
    (slot : Run.SlotStep s x u) : u.Consistent := by
  cases slot with
  | op _ op => exact h.apply op
  | other => exact h

theorem Consistent.markFailed (h : s.Consistent) : s.markFailed.Consistent := h.apply .markFailed

theorem isFree_markFailed (s : Slot) : s.markFailed.isFree = !s.live := by
  have open_ : ∀ b : Bool, (b && State.failed != .validating && State.failed != .active) = b := by
    decide
  exact open_ _

/-- The label makes a difference to the gate only in the middle of an acquire. -/
theorem Consistent.isFree_eq (h : s.Consistent) (settled : s.state ≠ .validating) :
    s.isFree = !s.live := by
  cases live : s.live with
  | true => simp [isFree, live]
  | false =>
    have inactive : s.state ≠ .active := by
      intro active
      rw [h.live_of_active active] at live
      cases live
    simp [isFree, live, settled, inactive]

end UiRunner.Session.Slot

namespace UiRunner.Run

open Session Routine

namespace Phase

variable {φ ψ : Phase} {s u : Slot} {x : Exchange}

/-- Only while a session is being acquired does the slot keep the label of that. -/
theorem Step.acquiring_of_validating (step : φ.Step x ψ) (slot : SlotStep s x u)
    (inside : φ.acquiring) (validating : u.state = .validating) : ψ.acquiring := by
  cases step with
  | enter | turnAway | quit | vacate => cases inside
  | connect | noConnection => rfl
  | refuse | abandon | conclude =>
    obtain ⟨-, rfl⟩ := slot.op_inv
    cases validating
  | markFailed handling =>
    rw [handling_of_acquiring inside] at handling
    cases handling
  | plain => exact inside

/-- Who has a handle does not set this label. -/
theorem Step.slot_eq_of_validating (step : φ.Step x ψ) (slot : SlotStep s x u)
    (handling : φ.handling) (validating : u.state = .validating) : u = s := by
  cases step with
  | enter | turnAway | connect | noConnection | refuse | abandon | conclude => cases handling
  | markFailed =>
    obtain ⟨-, rfl⟩ := slot.op_inv
    cases validating
  | vacate =>
    obtain ⟨-, rfl⟩ := slot.op_inv
    simp only [Slot.apply, Slot.vacate] at validating
    split at validating <;> cases validating
  | quit => exact slot.other_inv (by simp)
  | plain _ _ plain => exact plain_inv slot plain

end Phase

namespace Clients

variable {ι : Type} {m : Manager} {s s' : Clients ι} {i : ι} {config : Config}
  {phase : ι → Phase} {P : State → Prop}

/-- Somebody marks the session as failed. -/
def marked (s : Clients ι) : Clients ι := { s with slot := s.slot.markFailed }

/-- Every client stands in some phase, the slot is consistent, and its label tells of an acquire
only if there is one. -/
structure Sound (m : Manager) (s : Clients ι) : Prop where
  stands : ∀ i, ∃ φ, (s.client i).Stands m φ
  consistent : s.slot.Consistent
  claimed : s.slot.state = .validating → ∃ i, (s.client i).Validates

theorem Sound.marked (h : Sound m s) : Sound m s.marked :=
  ⟨h.stands, h.consistent.markFailed, fun validating => by cases validating⟩

/-- Clients stay ordered under a mark that does not hide an acquire. -/
theorem Ordered.marked (h : Ordered m s phase) (settled : s.slot.state ≠ .validating) :
    Ordered m s.marked phase := by
  refine ⟨h.stands, ⟨h.orderly.sole, fun i => ?_⟩, fun none => ?_⟩
  · have shown := h.orderly.shown i
    cases at_ : phase i with
    | admitted | opened =>
      rw [at_] at shown
      have same : s.slot = ⟨.validating, false⟩ := shown
      exact absurd (congrArg Slot.state same) settled
    | holding | closed =>
      rw [at_] at shown
      exact ⟨shown.1, .inr rfl⟩
    | outside | ended => trivial
  · have free := h.tidy none
    have notLive : s.slot.live = false := by simp_all [Slot.isFree]
    exact (Slot.isFree_markFailed s.slot).trans (by rw [notLive]; rfl)

variable [DecidableEq ι]

/-- The states that a manager and its clients can come to when anybody may mark the session as
failed, under the labels of `P`. -/
inductive Attainable (P : State → Prop) (m : Manager) : Clients ι → Prop where
  | start : Attainable P m {}
  | step {s s' : Clients ι} (i : ι) : Attainable P m s → Step m i s s' → Attainable P m s'
  | mark {s : Clients ι} : Attainable P m s → P s.slot.state → Attainable P m s.marked

/-! ## The gate -/

/-- The client issues an acquire, which comes to the gate. -/
def issued (m : Manager) (config : Config) (s : Clients ι) (i : ι) : Clients ι :=
  s.put i s.slot (.ofAcquire (m.acquire config))

/-- An acquire that the client issues next is turned away. -/
def TurnsAway (m : Manager) (config : Config) (s : Clients ι) (i : ι) : Prop :=
  ∀ s', Step m i (s.issued m config i) s' → s'.client i = .denied .sessionAlreadyActive

/-- An acquire that the client issues next passes the gate. -/
def Admits (m : Manager) (config : Config) (s : Clients ι) (i : ι) : Prop :=
  ∀ s', Step m i (s.issued m config i) s' → (s'.client i).Validates

/-- An acquire that was admitted is past the gate. -/
theorem validates_beyond (m : Manager) (config : Config) :
    (Client.ofAcquire (m.beyond config)).Validates :=
  (Client.stands_ofAcquire (m := m) Manager.settingUp_beyond).validates_iff.2 rfl

/-- What becomes of an acquire at the gate. -/
theorem step_issued_iff : Step m i (s.issued m config i) s' ↔
    s' = if s.slot.isFree then s.put i ⟨.validating, false⟩ (.ofAcquire (m.beyond config))
      else s.put i s.slot (.denied .sessionAlreadyActive) := by
  have at_ : (s.issued m config i).client i = .acquiring (m.acquire config) := by
    simp [issued, Clients.put, Manager.acquire_eq, Client.ofAcquire]
  rw [Manager.acquire_eq] at at_
  have answered : ((s.issued m config i).put i (s.slot.apply .enter).2 (.ofAcquire
      (if (s.slot.apply .enter).1 then m.beyond config
        else .done (.ok (.error .sessionAlreadyActive))))) =
      if s.slot.isFree then s.put i ⟨.validating, false⟩ (.ofAcquire (m.beyond config))
      else s.put i s.slot (.denied .sessionAlreadyActive) := by
    simp only [Slot.apply_enter, issued, Clients.put, Function.update_idem]
    split <;> rfl
  rw [← answered]
  constructor
  · intro step
    obtain ⟨x, u, slot, rfl⟩ | ⟨waits, -⟩ := step.of_acquiring at_
    · obtain ⟨rfl, rfl⟩ := slot.op_inv
      rfl
    · cases waits
  · rintro rfl
    exact .acquiring _ at_ (.op s.slot .enter)

theorem turnsAway_iff : TurnsAway m config s i ↔ s.slot.isFree = false := by
  simp only [TurnsAway, step_issued_iff, forall_eq]
  cases s.slot.isFree with
  | true =>
    obtain ⟨r, next, same, -⟩ := validates_beyond m config
    simp [Clients.put, same]
  | false => simp [Clients.put]

theorem admits_iff : Admits m config s i ↔ s.slot.isFree = true := by
  simp only [Admits, step_issued_iff, forall_eq]
  cases s.slot.isFree with
  | true => simpa [Clients.put] using validates_beyond m config
  | false => simp [Clients.put, Client.Validates]

/-! ## Marks at any time -/

theorem Sound.put (h : Sound m s) {c : Client} {u : Slot} {ψ : Phase} (stands : c.Stands m ψ)
    (consistent : u.Consistent)
    (claimed : u.state = .validating → c.Validates ∨ u = s.slot ∧ ¬ (s.client i).Validates) :
    Sound m (s.put i u c) := by
  refine ⟨fun j => ?_, consistent, fun validating => ?_⟩
  · by_cases ji : j = i
    · subst ji
      exact ⟨ψ, by simpa [Clients.put] using stands⟩
    · simpa [Clients.put, Function.update_of_ne ji] using h.stands j
  · obtain here | ⟨rfl, elsewhere⟩ := claimed validating
    · exact ⟨i, by simpa [Clients.put] using here⟩
    · obtain ⟨j, validates⟩ := h.claimed validating
      have ji : j ≠ i := by
        rintro rfl
        exact elsewhere validates
      exact ⟨j, by simpa [Clients.put, Function.update_of_ne ji] using validates⟩

/-- A client that is not past the gate leaves the label to the others. -/
theorem Sound.put_outside (h : Sound m s) {c : Client} {φ ψ : Phase} (stands : c.Stands m ψ)
    (before : (s.client i).Stands m φ) (outside : φ.acquiring = false) :
    Sound m (s.put i s.slot c) := by
  refine h.put stands h.consistent fun _ => .inr ⟨rfl, ?_⟩
  rw [before.validates_iff, outside]
  exact Bool.false_ne_true

theorem Sound.step (h : Sound m s) (step : Step m i s s') : Sound m s' := by
  obtain ⟨φ, stands⟩ := h.stands i
  cases step with
  | acquire config idle =>
    exact h.put_outside (.gate config) stands (by rw [stands.eq_ended idle]; rfl)
  | @acquiring r next u x at_ slot =>
    have here := stands
    rw [at_] at stands
    obtain ⟨rfl, config, same⟩ | obeys := stands.acquiring_inv
    · rw [Manager.acquire_eq] at same
      cases same
      cases x with
      | true =>
        exact h.put (Client.stands_ofAcquire Manager.settingUp_beyond) (h.consistent.step slot)
          fun _ => .inl (validates_beyond m config)
      | false =>
        obtain rfl : u = s.slot := (Phase.Step.turnAway.slot_eq slot).resolve_right (by decide)
        exact h.put_outside (.idle rfl) here rfl
    · obtain ⟨ψ, step, rest⟩ := obeys.2 x
      have after := Client.stands_ofAcquire (m := m) rest
      exact h.put after (h.consistent.step slot) fun validating =>
        .inl (after.validates_iff.2 (step.acquiring_of_validating slot obeys.1 validating))
  | abandon at_ waits =>
    rw [at_] at stands
    obtain ⟨-, config, same⟩ | obeys := stands.acquiring_inv
    · rw [Manager.acquire_eq] at same
      cases same
      cases waits
    · rw [dropped_eq obeys waits]
      exact h.put (.idle rfl) (h.consistent.apply .abandon) (by simp [Slot.abandon])
  | release at_ =>
    have holding := (at_ ▸ stands).holding_inv
    exact h.put_outside (Client.stands_ofRelease Manager.tearingDown_release) stands
      (by rw [holding]; rfl)
  | releasing x at_ slot =>
    rw [at_] at stands
    obtain ⟨handling, obeys⟩ := stands.releasing_inv
    obtain ⟨ψ, step, rest⟩ := obeys x
    refine h.put (Client.stands_ofRelease rest) (h.consistent.step slot) fun validating => ?_
    refine .inr ⟨step.slot_eq_of_validating slot handling validating, ?_⟩
    rintro ⟨r, next, same, -⟩
    cases at_.symm.trans same
  | markFailed out => exact h.put stands h.consistent.markFailed (by simp [Slot.markFailed])

theorem Attainable.sound (h : Attainable P m s) : Sound m s := by
  induction h with
  | start => exact ⟨fun _ => ⟨.ended, .idle rfl⟩, ⟨by simp, by simp⟩, by simp⟩
  | step i _ step ih => exact ih.step step
  | mark _ _ ih => exact ih.marked

/-- Clients are ordered as long as no mark hides an acquire. -/
theorem Attainable.ordered (h : Attainable (· ≠ .validating) m s) : ∃ phase, Ordered m s phase := by
  induction h with
  | start => exact ⟨_, Reachable.start.ordered.choose_spec⟩
  | step i _ step ih =>
    obtain ⟨phase, ordered⟩ := ih
    obtain ⟨ψ, ordered⟩ := ordered.step step
    exact ⟨_, ordered⟩
  | mark _ settled ih =>
    obtain ⟨phase, ordered⟩ := ih
    exact ⟨phase, ordered.marked settled⟩

/-- **A mark opens the gate exactly in the middle of an acquire.** Then there is a client past the
gate, the next acquire would have been turned away, and after the mark it is admitted. At any other
time a mark changes nothing for the next acquire; and as long as there are no other marks, acquires
are turned away exactly while another one is under way or a handle is out. -/
theorem gate_under_marks (m : Manager) (config : Config) :
    (∀ (s : Clients ι) (i : ι), Attainable (fun _ => True) m s → (s.client i).isIdle →
      ((TurnsAway m config s.marked i ↔ TurnsAway m config s i) ↔ s.slot.state ≠ .validating) ∧
      (s.slot.state = .validating → (∃ j, (s.client j).Validates) ∧
        TurnsAway m config s i ∧ Admits m config s.marked i)) ∧
    ∀ (s : Clients ι) (i : ι), Attainable (· ≠ .validating) m s → (s.client i).isIdle →
      (TurnsAway m config s i ↔ ∃ j, (s.client j).Validates ∨ (s.client j).isOutstanding) := by
  refine ⟨fun s i attainable _ => ?_, fun s i attainable _ => ?_⟩
  · have sound := attainable.sound
    have after : s.marked.slot.isFree = !s.slot.live := Slot.isFree_markFailed s.slot
    simp only [turnsAway_iff, admits_iff, after]
    by_cases validating : s.slot.state = .validating
    · have notLive := sound.consistent.not_live_of_validating validating
      simp [validating, notLive, Slot.isFree, sound.claimed validating]
    · rw [sound.consistent.isFree_eq validating]
      simp [validating]
  · obtain ⟨phase, ordered⟩ := attainable.ordered
    rw [turnsAway_iff, ← Bool.not_eq_true, ordered.isFree_iff]
    simp only [not_forall, not_not]

/-! ## Two clients -/

/-- An acquire that finds the slot free is admitted. -/
theorem Attainable.admitted (h : Attainable P m s) (idle : (s.client i).isIdle)
    (free : s.slot.isFree) (config : Config) :
    Attainable P m (s.put i ⟨.validating, false⟩ (.ofAcquire (m.beyond config))) :=
  (h.step i (.acquire config idle)).step i (step_issued_iff.2 (if_pos free).symm)

/-- Without checks and without a delay, an acquire that was admitted has a handle as soon as the
server has opened a session. -/
theorem Attainable.opened (h : Attainable P {} s)
    (at_ : s.client i = .ofAcquire (Manager.beyond {} config)) (id : SessionId) :
    Attainable P {} (s.put i ⟨.active, true⟩ (.holding id)) := by
  have connected : Attainable P {} (s.put i s.slot
      (.acquiring (.ask (.slot (.conclude .active)) fun _ => .done (.ok (.ok id))))) :=
    h.step i (.acquiring (r := .connect config) (.ok (.ok id)) at_ (.other s.slot _ (by simp)))
  have concluded := connected.step i (.acquiring (r := .slot (.conclude .active)) ()
    (Function.update_self i _ s.client) (.op _ _))
  simp only [Clients.put, Function.update_idem] at concluded
  exact concluded

def somewhere : Config := ⟨"http://localhost:4723", []⟩

/-- The first client is past the gate. -/
def oneInside : Clients Bool :=
  Clients.put {} false ⟨.validating, false⟩ (.ofAcquire (Manager.beyond {} somewhere))

theorem attainable_oneInside : Attainable P {} oneInside :=
  Attainable.start.admitted rfl rfl somewhere

/-- The first client has a handle. -/
def oneHandle : Clients Bool := oneInside.put false ⟨.active, true⟩ (.holding "a")

theorem gate_under_marks_oneHandle :
    Attainable (fun _ => True) {} oneHandle ∧ (oneHandle.client true).isIdle ∧
    TurnsAway {} somewhere oneHandle.marked true := by
  have held : ∀ P, Attainable P {} oneHandle := fun P => attainable_oneInside.opened rfl "a"
  obtain ⟨marks, ordered⟩ := gate_under_marks (ι := Bool) {} somewhere
  have before : TurnsAway {} somewhere oneHandle true :=
    (ordered _ true (held _) rfl).2 ⟨false, .inr rfl⟩
  exact ⟨held _, rfl, ((marks _ true (held _) rfl).1.2 (by simp [oneHandle, Clients.put])).2 before⟩

/-- While the first client opens a session, the second one is turned away, but not after a mark:
then both can have a handle at the same time. -/
theorem mark_admits_second : Attainable (fun _ => True) {} oneInside ∧
    (oneInside.client false).Validates ∧ TurnsAway {} somewhere oneInside true ∧
    ¬ TurnsAway {} somewhere oneInside.marked true ∧
    ∃ s : Clients Bool, Attainable (fun _ => True) {} s ∧
      ∀ i, (s.client i).isOutstanding := by
  have two : Attainable (fun _ => True) {} (oneInside.marked.put true ⟨.validating, false⟩
      (.ofAcquire (Manager.beyond {} somewhere))) :=
    (attainable_oneInside.mark trivial).admitted rfl rfl somewhere
  refine ⟨attainable_oneInside, validates_beyond {} somewhere, turnsAway_iff.2 rfl,
    fun away => Bool.noConfusion (turnsAway_iff.1 away),
    _, (two.opened (i := true) rfl "b").opened (i := false) rfl "a", ?_⟩
  decide

end Clients

end UiRunner.Run
