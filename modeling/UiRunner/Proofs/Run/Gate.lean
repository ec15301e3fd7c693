import UiRunner.Proofs.Run.Protocol
import UiRunner.Run.Clients

/-!
# What the slot tells of the clients

Every client of a manager is in a phase of the slot protocol, and the phases of all clients are
orderly in every state that can be reached. So label and handle bit of the slot tell whether an
acquire is under way or a handle is out, and the gate turns away an acquire in no other case.
-/
namespace UiRunner.Run

open Session Routine

namespace Client

variable {m : Manager} {c : Client} {φ : Phase}

/-- Where a client stands towards the slot. -/
inductive Stands (m : Manager) : Client → Phase → Prop where
  | idle {c : Client} : c.isIdle → Stands m c .ended
  | gate (config : Config) : Stands m (.acquiring (m.acquire config)) .outside
  | acquiring {r : Request} {next : r.Answer → Course (Attempt SessionId)} {φ : Phase} :
      SettingUp (.ask r next) φ →
      Stands m (.acquiring (.ask r next)) φ
  | holding (id : SessionId) : Stands m (.holding id) .holding
  | releasing {r : Request} {next : r.Answer → Course Unit} {φ : Phase} :
      TearingDown (.ask r next) φ →
      Stands m (.releasing (.ask r next)) φ

theorem stands_ofAcquire {c : Course (Attempt SessionId)}
    (h : SettingUp c φ) : (ofAcquire c).Stands m φ := by
  cases c with
  | ask r next => exact .acquiring h
  | done a =>
    rcases a with p | e | id
    · obtain rfl : φ = .ended := h
      exact .idle rfl
    · obtain rfl : φ = .ended := h
      exact .idle rfl
    · obtain rfl : φ = .holding := h
      exact .holding id

theorem stands_ofRelease {c : Course Unit}
    (h : TearingDown c φ) : (ofRelease c).Stands m φ := by
  cases c with
  | ask r next => exact .releasing h
  | done a =>
    obtain rfl : φ = .ended := h
    exact .idle rfl

/-- A suspended acquire is at the gate, or it obeys its phase. -/
theorem Stands.acquiring_inv {r : Request} {next : r.Answer → Course (Attempt SessionId)}
    (h : Stands m (.acquiring (.ask r next)) φ) :
    (φ = .outside ∧ ∃ config, Routine.ask r next = m.acquire config) ∨
      SettingUp (.ask r next) φ := by
  generalize hc : Client.acquiring (.ask r next) = c at h
  cases h with
  | idle idle => subst hc; cases idle
  | gate config => exact .inl ⟨rfl, config, by simpa using hc⟩
  | acquiring obeys =>
    cases hc
    exact .inr obeys
  | holding | releasing => cases hc

theorem Stands.holding_inv {id : SessionId} (h : Stands m (.holding id) φ) : φ = .holding := by
  cases h with
  | idle idle => cases idle
  | holding => rfl

theorem Stands.releasing_inv {r : Request} {next : r.Answer → Course Unit}
    (h : Stands m (.releasing (.ask r next)) φ) :
    TearingDown (.ask r next) φ := by
  cases h with
  | idle idle => cases idle
  | releasing obeys => exact obeys

theorem Stands.eq_ended (h : Stands m c φ) (idle : c.isIdle) : φ = .ended := by
  cases h with
  | idle => rfl
  | gate | acquiring | holding | releasing => cases idle

theorem Stands.isOutstanding_eq (h : Stands m c φ) : c.isOutstanding = φ.handling := by
  cases h with
  | idle idle => cases c <;> simp_all [isIdle, isOutstanding, Phase.handling]
  | gate | holding => rfl
  | acquiring obeys => exact (Phase.handling_of_acquiring obeys.1).symm
  | releasing obeys => exact obeys.1.symm

theorem Stands.validates_iff (h : Stands m c φ) : c.Validates ↔ φ.acquiring := by
  cases h with
  | idle idle =>
    refine iff_of_false ?_ (by simp [Phase.acquiring])
    rintro ⟨r, next, rfl, -⟩
    cases idle
  | gate config =>
    refine iff_of_false ?_ (by simp [Phase.acquiring])
    rintro ⟨r, next, same, other⟩
    rw [Manager.acquire_eq] at same
    cases same
    exact other rfl
  | @acquiring r next φ obeys =>
    refine iff_of_true ⟨r, next, rfl, ?_⟩ obeys.1
    rintro rfl
    obtain ⟨ψ, step, -⟩ := obeys.2 true
    have acquiring := obeys.1
    cases step with
    | enter => cases acquiring
    | plain _ _ allowed => cases allowed
  | holding id =>
    refine iff_of_false ?_ (by simp [Phase.acquiring])
    rintro ⟨r, next, same, -⟩
    cases same
  | releasing obeys =>
    refine iff_of_false ?_ ?_
    · rintro ⟨r, next, same, -⟩
      cases same
    · intro acquiring
      have handling : φ.handling := obeys.1
      rw [Phase.handling_of_acquiring acquiring] at handling
      cases handling

end Client

namespace Clients

variable {ι : Type} {m : Manager} {s s' : Clients ι} {phase : ι → Phase} {i : ι}

/-- Every client stands in its phase, and the phases are orderly. -/
structure Ordered (m : Manager) (s : Clients ι) (phase : ι → Phase) : Prop where
  stands : ∀ i, (s.client i).Stands m (phase i)
  orderly : Orderly s.slot phase
  tidy : Tidy s.slot phase

theorem Ordered.validating_iff (h : Ordered m s phase) :
    s.slot.state = .validating ↔ ∃! i, (s.client i).Validates :=
  (h.orderly.validating_iff h.tidy).trans
    (existsUnique_congr fun i => (h.stands i).validates_iff.symm)

theorem Ordered.live_iff (h : Ordered m s phase) :
    s.slot.live = true ↔ ∃! i, (s.client i).isOutstanding :=
  (h.orderly.live_iff h.tidy).trans
    (existsUnique_congr fun i => by rw [(h.stands i).isOutstanding_eq])

theorem Ordered.isFree_iff (h : Ordered m s phase) :
    s.slot.isFree ↔ ∀ i, ¬ ((s.client i).Validates ∨ (s.client i).isOutstanding) := by
  constructor
  · intro free i
    rw [(h.stands i).validates_iff, (h.stands i).isOutstanding_eq]
    have outside := h.orderly.not_inside free i
    rintro (acquiring | handling)
    · rw [Phase.inside_of_acquiring acquiring] at outside
      cases outside
    · rw [Phase.inside_of_handling handling] at outside
      cases outside
  · intro none
    refine h.tidy fun i => ?_
    by_contra inside
    obtain acquiring | handling := Phase.acquiring_or_handling (by simpa using inside)
    · exact none i (.inl ((h.stands i).validates_iff.2 acquiring))
    · exact none i (.inr (by rw [(h.stands i).isOutstanding_eq, handling]))

/-- A handle is out exactly in the session's own labels. -/
theorem Ordered.live_of_active (h : Ordered m s phase) (active : s.slot.state = .active) :
    s.slot.live = true := by
  obtain ⟨i, inside⟩ := h.tidy.exists_inside (by simp [Slot.isFree, active])
  obtain acquiring | handling := Phase.acquiring_or_handling inside
  · simp [(h.orderly.shown i).eq_of_acquiring acquiring] at active
  · exact ((h.orderly.shown i).of_handling handling).1

theorem Ordered.state_of_live (h : Ordered m s phase) (live : s.slot.live = true) :
    s.slot.state = .active ∨ s.slot.state = .failed := by
  obtain ⟨i, out, -⟩ := h.live_iff.1 live
  rw [(h.stands i).isOutstanding_eq] at out
  exact ((h.orderly.shown i).of_handling out).2

variable [DecidableEq ι]

theorem Ordered.put (h : Ordered m s phase) {c : Client} {u : Slot} {ψ : Phase}
    (stands : c.Stands m ψ) (orderly : Orderly u (Function.update phase i ψ))
    (tidy : Tidy u (Function.update phase i ψ)) :
    Ordered m (s.put i u c) (Function.update phase i ψ) := by
  refine ⟨fun j => ?_, orderly, tidy⟩
  by_cases ji : j = i
  · subst ji
    simpa [Clients.put] using stands
  · simpa [Clients.put, Function.update_of_ne ji] using h.stands j

/-- A client that stays outside moves on as it likes. -/
theorem Ordered.put_outside (h : Ordered m s phase) {c : Client} {ψ : Phase}
    (stands : c.Stands m ψ) (before : (phase i).inside = false) (after : ψ.inside = false) :
    Ordered m (s.put i s.slot c) (Function.update phase i ψ) :=
  h.put stands
    (h.orderly.move (.of_not_inside after) (by simp [after]) (.inl rfl))
    (h.tidy.move (by simp [before]) (.inl rfl))

theorem Ordered.put_step (h : Ordered m s phase) {c : Client} {u : Slot} {ψ : Phase}
    {x : Exchange} (stands : c.Stands m ψ) (step : (phase i).Step x ψ)
    (slot : SlotStep s.slot x u) : Ordered m (s.put i u c) (Function.update phase i ψ) :=
  h.put stands (h.orderly.step step slot) (h.tidy.step h.orderly step slot)

/-- Only setting a session up is waited for while it is being acquired, so an acquire that is
dropped marks the slot as failed. -/
theorem dropped_eq {r : Request} {next : r.Answer → Course (Attempt SessionId)} {φ : Phase}
    (obeys : SettingUp (.ask r next) φ) (waits : r.isAwaited)
    (u : Slot) : r.dropped u = u.abandon := by
  obtain ⟨acquiring, obeys⟩ := obeys
  obtain ⟨x⟩ := answerable r
  obtain ⟨ψ, step, -⟩ := obeys x
  cases r with
  | check | connect | settle => rfl
  | now | cancelled | slot => cases waits
  | act =>
    cases step with
    | plain _ _ allowed =>
      obtain rfl : φ = .holding := by simpa [Phase.allows] using allowed
      cases acquiring
  | quit =>
    cases step with
    | quit => cases acquiring
    | plain _ _ allowed => cases allowed

/-- Clients stay ordered, whatever one of them does. -/
theorem Ordered.step (h : Ordered m s phase) (step : Step m i s s') :
    ∃ ψ, Ordered m s' (Function.update phase i ψ) := by
  have stands := h.stands i
  cases step with
  | acquire config idle =>
    exact ⟨.outside, h.put_outside (.gate config) (by rw [stands.eq_ended idle]; rfl) rfl⟩
  | acquiring x at_ slot =>
    rw [at_] at stands
    obtain ⟨outside, config, same⟩ | obeys := stands.acquiring_inv
    · rw [Manager.acquire_eq] at same
      cases same
      cases x with
      | false => exact ⟨.ended, h.put_step (.idle rfl) (by rw [outside]; exact .turnAway) slot⟩
      | true =>
        exact ⟨.admitted, h.put_step (Client.stands_ofAcquire Manager.settingUp_beyond)
          (by rw [outside]; exact .enter) slot⟩
    · obtain ⟨ψ, step, rest⟩ := obeys.2 x
      exact ⟨ψ, h.put_step (Client.stands_ofAcquire rest) step slot⟩
  | abandon at_ waits =>
    rw [at_] at stands
    obtain ⟨-, config, same⟩ | obeys := stands.acquiring_inv
    · rw [Manager.acquire_eq] at same
      cases same
      cases waits
    · rw [dropped_eq obeys waits]
      have inside := Phase.inside_of_acquiring obeys.1
      have shown := (h.orderly.shown i).eq_of_acquiring obeys.1
      exact ⟨.ended, h.put (.idle rfl)
        (h.orderly.move trivial nofun (.inr (.inl inside)))
        (h.tidy.move (fun _ _ => by rw [shown]; rfl) (.inr (.inl inside)))⟩
  | release at_ =>
    rw [at_] at stands
    have holding := stands.holding_inv
    refine ⟨.holding, h.put (Client.stands_ofRelease Manager.tearingDown_release) ?_ ?_⟩
    · rw [← holding, Function.update_eq_self]
      exact h.orderly
    · rw [← holding, Function.update_eq_self]
      exact h.tidy
  | releasing x at_ slot =>
    rw [at_] at stands
    obtain ⟨ψ, step, rest⟩ := stands.releasing_inv.2 x
    exact ⟨ψ, h.put_step (Client.stands_ofRelease rest) step slot⟩
  | markFailed out =>
    rw [stands.isOutstanding_eq] at out
    exact ⟨phase i, h.put_step stands (.markFailed out) (.op s.slot .markFailed)⟩

theorem Reachable.ordered (h : Reachable m s) : ∃ phase, Ordered m s phase := by
  induction h with
  | start => exact ⟨fun _ => .ended, fun _ => .idle rfl, ⟨nofun, fun _ => trivial⟩, fun _ => rfl⟩
  | step i _ step ih =>
    obtain ⟨phase, ordered⟩ := ih
    obtain ⟨ψ, ordered⟩ := ordered.step step
    exact ⟨_, ordered⟩

/-- A client whose acquire waits gets an answer, or drops the acquire. -/
theorem Step.of_acquiring {r : Request} {next : r.Answer → Course (Attempt SessionId)}
    (step : Step m i s s') (at_ : s.client i = .acquiring (.ask r next)) :
    (∃ x u, SlotStep s.slot ⟨r, x⟩ u ∧ s' = s.put i u (.ofAcquire (next x))) ∨
      (r.isAwaited ∧ s' = s.put i (r.dropped s.slot) .abandoned) := by
  cases step with
  | acquire _ idle => simp [at_, Client.isIdle] at idle
  | release at' | releasing _ at' => simp [at_] at at'
  | markFailed out => simp [at_, Client.isOutstanding] at out
  | abandon at' waits =>
    cases at_.symm.trans at'
    exact .inr ⟨waits, rfl⟩
  | acquiring x at' slot =>
    cases at_.symm.trans at'
    exact .inl ⟨x, _, slot, rfl⟩

/-- What becomes of an acquire at the gate. -/
theorem Ordered.at_gate (h : Ordered m s phase) {next : Bool → Course (Attempt SessionId)}
    (at_ : s.client i = .acquiring (.ask (.slot .enter) next)) (step : Step m i s s') :
    (s.slot.isFree = true ∧ (s'.client i).Validates) ∨
      (s.slot.isFree = false ∧ s' = s.put i s.slot (.denied .sessionAlreadyActive)) := by
  have stands := h.stands i
  rw [at_] at stands
  obtain ⟨-, config, same⟩ | obeys := stands.acquiring_inv
  · rw [Manager.acquire_eq] at same
    obtain rfl : next = _ := by simpa using same
    obtain ⟨x, u, slot, rfl⟩ | ⟨waits, -⟩ := step.of_acquiring at_
    · obtain ⟨rfl, rfl⟩ := slot.op_inv
      cases free : s.slot.isFree with
      | true =>
        refine .inl ⟨rfl, ?_⟩
        simp only [Slot.apply_enter, free, Clients.put, Function.update_self, ite_true]
        exact (Client.stands_ofAcquire (m := m) Manager.settingUp_beyond).validates_iff.2 rfl
      | false =>
        refine .inr ⟨rfl, ?_⟩
        simp [Slot.apply_enter, free, Client.ofAcquire]
    · cases waits
  · obtain ⟨r, _, same, other⟩ := stands.validates_iff.2 obeys.1
    cases same
    exact absurd rfl other

/-- An acquire that comes to nothing leaves the slot failed. -/
theorem Ordered.failed_of_isIdle (h : Ordered m s phase) (validates : (s.client i).Validates)
    (step : Step m i s s') (idle : (s'.client i).isIdle) : s'.slot = ⟨.failed, false⟩ := by
  have acquiring := (h.stands i).validates_iff.1 validates
  obtain ⟨r, next, at_, other⟩ := validates
  have stands := h.stands i
  rw [at_] at stands
  obtain ⟨outside, -⟩ | obeys := stands.acquiring_inv
  · rw [outside] at acquiring
    cases acquiring
  obtain ⟨x, u, slot, rfl⟩ | ⟨waits, rfl⟩ := step.of_acquiring at_
  · obtain ⟨ψ, step, rest⟩ := obeys.2 x
    have ended := (Client.stands_ofAcquire (m := m) rest).eq_ended
      (by simpa [Clients.put] using idle)
    exact step.fails slot (h.orderly.shown i) acquiring ended
  · have shown := (h.orderly.shown i).eq_of_acquiring acquiring
    simp [Clients.put, dropped_eq obeys waits, shown, Slot.abandon]

/-- **The slot tells what the clients of a manager are about**: an acquire is under way, or a
handle is out, or neither. An acquire is turned away in the first two cases only and changes
nothing; one that comes to nothing behind the gate leaves the slot failed and free. -/
theorem slot_tells (m : Manager) :
    (∀ s : Clients ι, Reachable m s →
      (s.slot.state = .validating ↔ ∃! i, (s.client i).Validates) ∧
      (s.slot.live = true ↔ ∃! i, (s.client i).isOutstanding) ∧
      ¬ (s.slot.state = .validating ∧ s.slot.live = true) ∧
      (s.slot.state = .active → s.slot.live = true) ∧
      (s.slot.live = true → s.slot.state = .active ∨ s.slot.state = .failed)) ∧
    (∀ (s s' : Clients ι) (i : ι) (next : Bool → Course (Attempt SessionId)), Reachable m s →
      s.client i = .acquiring (.ask (.slot .enter) next) → Step m i s s' →
        (s'.client i = .denied .sessionAlreadyActive ↔
          ∃ j, (s.client j).Validates ∨ (s.client j).isOutstanding) ∧
        (s'.client i = .denied .sessionAlreadyActive →
          s'.slot = s.slot ∧ ∀ j ≠ i, s'.client j = s.client j)) ∧
    ∀ (s s' : Clients ι) (i : ι), Reachable m s → (s.client i).Validates → Step m i s s' →
      (s'.client i).isIdle → s'.slot = ⟨.failed, false⟩ ∧ s'.slot.isFree ∧
        ∀ j, ¬ ((s'.client j).Validates ∨ (s'.client j).isOutstanding) := by
  refine ⟨fun s reachable => ?_, fun s s' i next reachable at_ step => ?_,
    fun s s' i reachable validates step idle => ?_⟩
  · obtain ⟨phase, h⟩ := reachable.ordered
    refine ⟨h.validating_iff, h.live_iff, ?_, h.live_of_active, h.state_of_live⟩
    rintro ⟨validating, live⟩
    obtain active | failed := h.state_of_live live <;> simp_all
  · obtain ⟨phase, h⟩ := reachable.ordered
    obtain ⟨free, validates⟩ | ⟨busy, rfl⟩ := h.at_gate at_ step
    · have none := h.isFree_iff.1 free
      have admitted : s'.client i ≠ .denied .sessionAlreadyActive := by
        obtain ⟨r, next, same, -⟩ := validates
        simp [same]
      exact ⟨iff_of_false admitted fun ⟨j, hj⟩ => none j hj, fun denied => absurd denied admitted⟩
    · have some : ∃ j, (s.client j).Validates ∨ (s.client j).isOutstanding := by
        by_contra none
        rw [h.isFree_iff.2 (by simpa using none)] at busy
        cases busy
      exact ⟨iff_of_true (by simp [Clients.put]) some, fun _ =>
        ⟨rfl, fun j ne => by simp [Clients.put, Function.update_of_ne ne]⟩⟩
  · obtain ⟨phase, h⟩ := reachable.ordered
    obtain ⟨phase', h'⟩ := (reachable.step i step).ordered
    have failed := h.failed_of_isIdle validates step idle
    have free : s'.slot.isFree := by rw [failed]; rfl
    exact ⟨failed, free, h'.isFree_iff.1 free⟩

/-- A second client is turned away while the first one opens a session. -/
theorem slot_tells_secondClient : ∃ s s' : Clients Bool, Reachable {} s ∧ Step {} true s s' ∧
    (∃! i, (s.client i).Validates) ∧ s'.client true = .denied .sessionAlreadyActive ∧
    s'.slot = s.slot := by
  let config : Config := ⟨"http://localhost:4723", []⟩
  let atGate : Clients Bool := Clients.put {} false {} (.acquiring (Manager.acquire {} config))
  let behind : Clients Bool :=
    atGate.put false ⟨.validating, false⟩ (.ofAcquire (Manager.beyond {} config))
  let both : Clients Bool :=
    behind.put true ⟨.validating, false⟩ (.acquiring (Manager.acquire {} config))
  have first : Reachable {} atGate := .step false .start (.acquire config rfl)
  have enters : SlotStep atGate.slot ⟨.slot .enter, true⟩ ⟨.validating, false⟩ := .op _ .enter
  have at_ : atGate.client false = .acquiring (.ask (.slot .enter) _) := rfl
  have admitted : Reachable {} behind := first.step false (.acquiring true at_ enters)
  have reachable : Reachable {} both := .step true admitted (.acquire config rfl)
  have stays : SlotStep both.slot ⟨.slot .enter, false⟩ both.slot := .op _ .enter
  have at' : both.client true = .acquiring (.ask (.slot .enter) _) := rfl
  have step := Step.acquiring (m := {}) false at' stays
  obtain ⟨tells, gate, -⟩ := slot_tells (ι := Bool) {}
  have turnedAway := (gate _ _ true _ reachable at' step).2 rfl
  exact ⟨_, _, reachable, step, (tells _ reachable).1.1 rfl, rfl, turnedAway.1⟩

end Clients

end UiRunner.Run
