import UiRunner.Proofs.Routine
import UiRunner.Run.Trace

/-!
# Runs in a world and their traces

A run in a world is one of the runs that `Ends` describes: the answers that the world gives make a
trace with the same result, and along this trace the slot goes from its first to its last state.
-/
namespace UiRunner.Run

open Session Routine

variable {σ α β : Type} {s u v : Slot} {xs ys : Trace}

@[simp] theorem callsOf_nil : callsOf [] = [] := rfl

@[simp] theorem callsOf_append : callsOf (xs ++ ys) = callsOf xs ++ callsOf ys := by
  simp [callsOf]

theorem callsOf_cons (x : Exchange) :
    callsOf (x :: xs) = x.request.call?.toList ++ callsOf xs := by
  cases h : x.request.call? <;> simp [callsOf, h]

/-- Every request has an answer, so every run can come to an end. -/
theorem answerable (r : Request) : Nonempty r.Answer := by
  cases r with
  | act r cutoff => exact ⟨.cut⟩
  | check | connect | settle | quit | now | cancelled => exact ⟨default⟩
  | slot op => cases op <;> exact ⟨default⟩

/-- A run that begins with a request goes on with the answer. -/
theorem ends_ask_bind_iff {r : Request} {f : r.Answer → Course β} {b : β} :
    Ends (ask r >>= f) xs b ↔ ∃ x ys, xs = ⟨r, x⟩ :: ys ∧ Ends (f x) ys b :=
  ends_ask_iff

theorem asks_ask_bind_iff {P : Request → Prop} {r : Request} {f : r.Answer → Course β} :
    Asks P (ask r >>= f) ↔ P r ∧ ∀ x, Asks P (f x) := Iff.rfl

/-! ## The slot along a trace -/

/-- Only a free slot can be entered, and it has no handle out. -/
theorem Slot.apply_enter (s : Slot) :
    s.apply .enter = if s.isFree then (true, ⟨.validating, false⟩) else (false, s) := by
  unfold Slot.apply Slot.enter?
  split
  · have live : s.live = false := by simp_all [Slot.isFree]
    simp_all
  · simp_all

theorem SlotStep.op_inv {op : Slot.Op} {x : op.Answer} (h : SlotStep s ⟨.slot op, x⟩ u) :
    x = (s.apply op).1 ∧ u = (s.apply op).2 := by
  cases h with
  | op => exact ⟨rfl, rfl⟩
  | other _ _ none => exact absurd rfl (none op)

theorem SlotStep.other_inv {r : Request} {x : r.Answer} (h : SlotStep s ⟨r, x⟩ u)
    (none : ∀ op, r ≠ .slot op) : u = s := by
  cases h with
  | op _ op => exact absurd rfl (none op)
  | other => rfl

theorem SlotStep.unchanged {r : Request} {x : r.Answer} (h : u = s)
    (none : ∀ op, r ≠ .slot op) : SlotStep s ⟨r, x⟩ u := by
  rw [h]
  exact .other s x none

@[simp] theorem slotPath_nil_iff : SlotPath s [] v ↔ v = s := by
  constructor
  · rintro ⟨⟩
    rfl
  · rintro rfl
    exact .nil _

@[simp] theorem slotPath_cons_iff {x : Exchange} :
    SlotPath s (x :: xs) v ↔ ∃ u, SlotStep s x u ∧ SlotPath u xs v := by
  constructor
  · rintro ⟨⟩
    exact ⟨_, ‹_›, ‹_›⟩
  · rintro ⟨u, h, g⟩
    exact .cons h g

theorem slotPath_append_iff :
    SlotPath s (xs ++ ys) v ↔ ∃ u, SlotPath s xs u ∧ SlotPath u ys v := by
  induction xs generalizing s with
  | nil => simp
  | cons x xs ih =>
    simp only [List.cons_append, slotPath_cons_iff, ih]
    constructor
    · rintro ⟨w, h, u, g, k⟩
      exact ⟨u, ⟨w, h, g⟩, k⟩
    · rintro ⟨u, ⟨w, h, g⟩, k⟩
      exact ⟨w, h, u, g, k⟩

/-- A trace that leaves the slot alone does not change it. -/
theorem SlotPath.eq_of_forall (h : SlotPath s xs v)
    (none : ∀ x ∈ xs, ∀ op, x.request ≠ .slot op) : v = s := by
  induction h with
  | nil => rfl
  | @cons s u v x xs step _ ih =>
    obtain rfl : u = s := step.other_inv (none x List.mem_cons_self)
    exact ih fun y hy => none y (List.mem_cons_of_mem _ hy)

/-! ## Runs in a world -/

@[simp] theorem World.signal_slot (w : World σ) : w.signal.slot = w.slot := by
  unfold signal
  split <;> rfl

theorem World.call_finish_slot (w w' : World σ) (c : Call) (r : Reaction σ α) :
    ((w.call c r).finish w').2.slot = w'.slot := by
  simp only [call]
  split <;> simp

theorem Underway.cutAt_world (u : Underway σ (Fate α)) (cutoff : Option Nat) :
    (u.cutAt cutoff).world = u.world := by
  unfold cutAt
  split
  · rfl
  · split <;> rfl

/-- Giving a request up leaves the world as it is. -/
theorem Underway.cutAt_finish (part : World σ → β) {u : Underway σ (Fate α)}
    (keeps : ∀ w, part (u.finish w).2 = part w) (cutoff : Option Nat) (w : World σ) :
    part ((u.cutAt cutoff).finish w).2 = part w := by
  unfold cutAt
  split
  · exact keeps w
  · split
    · exact keeps w
    · rfl

theorem World.act_world (env : Environment σ) (w : World σ) (cutoff : Option Nat)
    (r : Action.Request) : (w.act env cutoff r).world = (w.await env r).world := by
  unfold act
  split
  · rfl
  · exact Underway.cutAt_world ..

theorem World.act_finish (env : Environment σ) (w : World σ) {r : Action.Request}
    (part : World σ → β) (keeps : ∀ v, part ((w.await env r).finish v).2 = part v)
    (cutoff : Option Nat) (v : World σ) : part ((w.act env cutoff r).finish v).2 = part v := by
  unfold act
  split
  · exact keeps v
  · exact Underway.cutAt_finish part keeps cutoff v

/-- Waiting for an answer is no waiting with a limit. -/
theorem World.act_none (env : Environment σ) (w : World σ) (r : Action.Request) :
    w.act env none r = w.await env r := by
  cases r <;> rfl

theorem World.act_world_slot (env : Environment σ) (w : World σ) (cutoff : Option Nat)
    (r : Action.Request) : (w.act env cutoff r).world.slot = w.slot := by
  rw [act_world]
  cases r <;> rfl

theorem World.act_finish_slot (env : Environment σ) (w w' : World σ) (cutoff : Option Nat)
    (r : Action.Request) : ((w.act env cutoff r).finish w').2.slot = w'.slot := by
  refine act_finish env w (·.slot) (fun v => ?_) cutoff w'
  cases r with
  | command c => exact call_finish_slot w v (.command c) (env.command w.now c w.outside)
  | pause | now | makeDirectories | write | forever => rfl

theorem World.begin_slot (env : Environment σ) (w : World σ) (r : Request) :
    (w.begin env r).world.slot = w.slot := by
  cases r with
  | act r cutoff => exact act_world_slot env w cutoff r
  | check | connect | settle | quit | now | cancelled | slot => rfl

/-- A world answers what is asked of the slot as the slot then stands, and changes the slot in no
other way. -/
theorem World.slotStep (env : Environment σ) (w w' : World σ) (r : Request) :
    SlotStep w'.slot ⟨r, ((w.begin env r).finish w').1⟩ ((w.begin env r).finish w').2.slot := by
  cases r with
  | slot op => exact .op w'.slot op
  | act r cutoff => exact .unchanged (act_finish_slot ..) nofun
  | check | connect | quit => exact .unchanged (call_finish_slot ..) nofun
  | settle | now | cancelled => exact .unchanged rfl nofun

/-- Along the trace of a run the slot goes from its first to its last state. -/
theorem Course.slotPath_trace (env : Environment σ) (limit : Option Nat) (c : Course α)
    (w : World σ) : SlotPath w.slot (c.trace env limit w) (c.run env limit w).2.slot := by
  induction c generalizing w with
  | done a => exact .nil _
  | ask r next ih =>
    simp only [trace, run]
    split
    · rw [← World.begin_slot env w r]
      exact .cons (World.slotStep env w (World.reach _ _) r) (ih _ _)
    · simp [World.begin_slot]

theorem Course.run_ask_of_due {env : Environment σ} {w : World σ} {r : Request}
    {next : r.Answer → Course α} {t : Nat} (due : (w.begin env r).due = some t) :
    Course.run env none (.ask r next) w =
      (next ((w.begin env r).finish ((w.begin env r).world.reach t)).1).run env none
        ((w.begin env r).finish ((w.begin env r).world.reach t)).2 := by
  simp [Course.run, due, Underway.comesBy]

/-- A run that finished got an answer to its first request. -/
theorem Course.due_of_run {env : Environment σ} {w w' : World σ} {r : Request}
    {next : r.Answer → Course α} {a : α}
    (run : Course.run env none (.ask r next) w = (.finished a, w')) :
    ∃ t, (w.begin env r).due = some t := by
  cases due : (w.begin env r).due with
  | some t => exact ⟨t, rfl⟩
  | none => simp [Course.run, due, Underway.comesBy] at run

/-- One course after the other, in a world. -/
theorem Course.run_bind (env : Environment σ) (limit : Option Nat) (c : Course α)
    (f : α → Course β) (w : World σ) :
    (c >>= f).run env limit w = match c.run env limit w with
      | (.finished a, w') => (f a).run env limit w'
      | (.waiting p, w') => (.waiting { p with next := fun x => p.next x >>= f }, w') := by
  induction c generalizing w with
  | done a => rfl
  | ask r next ih =>
    simp only [ask_bind, run]
    split
    · exact ih _ _
    · rfl

theorem Course.run_bind_finished_iff {env : Environment σ} {limit : Option Nat} {c : Course α}
    {f : α → Course β} {w u : World σ} {b : β} :
    (c >>= f).run env limit w = (.finished b, u) ↔
      ∃ a v, c.run env limit w = (.finished a, v) ∧ (f a).run env limit v = (.finished b, u) := by
  rw [run_bind]
  rcases c.run env limit w with ⟨a | pending, v⟩ <;> simp

/-- The last value takes a run nowhere. -/
theorem Course.run_bind_done_world (env : Environment σ) (limit : Option Nat) (c : Course α)
    (f : α → β) (w : World σ) :
    ((c >>= fun a => .done (f a)).run env limit w).2 = (c.run env limit w).2 := by
  rw [run_bind]
  rcases c.run env limit w with ⟨a | pending, v⟩ <;> rfl

/-- The last value is exchanged with nobody. -/
theorem Course.trace_bind_done (env : Environment σ) (limit : Option Nat) (c : Course α)
    (f : α → β) (w : World σ) :
    (c >>= fun a => .done (f a)).trace env limit w = c.trace env limit w := by
  induction c generalizing w with
  | done a => rfl
  | ask r next ih =>
    simp only [ask_bind, trace]
    split
    · rw [ih]
    · rfl

/-- What a run came to, if it has finished. -/
def Progress.result? : Progress σ α → Option α
  | .finished a => some a
  | .waiting _ => none

@[simp] theorem Progress.result?_eq_some_iff {p : Progress σ α} {a : α} :
    p.result? = some a ↔ p = .finished a := by
  cases p <;> simp [result?]

theorem Course.result?_run_bind_done (env : Environment σ) (limit : Option Nat) (c : Course α)
    (f : α → β) (w : World σ) :
    ((c >>= fun a => .done (f a)).run env limit w).1.result? =
      (c.run env limit w).1.result?.map f := by
  rw [run_bind]
  rcases c.run env limit w with ⟨a | pending, v⟩ <;> rfl

/-- What is seen of an answer shows that there is one. -/
theorem exists_ok_of_any {ε α : Type} {x : Except ε α} {f : α → Bool}
    (h : x.toOption.any f = true) : ∃ a, x = .ok a ∧ f a = true := by
  cases x with
  | error e => cases h
  | ok a => exact ⟨a, rfl, h⟩

/-- A finished run is an ending of its course, with the answers that the world gave. -/
theorem Course.ends_of_run {env : Environment σ} {limit : Option Nat} {c : Course α}
    {w w' : World σ} {a : α} (h : c.run env limit w = (.finished a, w')) :
    Ends c (c.trace env limit w) a := by
  induction c generalizing w with
  | done b =>
    simp only [Course.run, Prod.mk.injEq, Progress.finished.injEq] at h
    simp [Course.trace, h.1]
  | ask r next ih =>
    simp only [Course.run] at h
    simp only [Course.trace]
    split at h
    · rename_i due
      simp only [due, ite_true]
      exact .ask (ih _ h)
    · simp at h

end UiRunner.Run
