import Mathlib.Order.Nat
import UiRunner.Proofs.Run.Trace

/-!
# Time and calls along a run

The clock is never set back, a run that is cancelled stays so, and every call is entered in the
journal at the instant at which it is begun. So the calls of a run up to an instant are those that
its journal holds up to it.
-/
namespace UiRunner.Run

open Routine

variable {σ α : Type}

namespace World

variable {env : Environment σ} {w v u : World σ} {xs ys : List (Nat × Call)}

/-- A run leads from one world to another one and begins these calls, the last one first. -/
structure Leads (w u : World σ) (xs : List (Nat × Call)) : Prop where
  journal : u.journal = xs ++ w.journal
  since : ∀ x ∈ xs, w.now ≤ x.1
  upTo : ∀ x ∈ xs, x.1 ≤ u.now
  le : w.now ≤ u.now
  cancelled : w.isCancelled → u.isCancelled

theorem Leads.refl (w : World σ) : w.Leads w [] :=
  ⟨rfl, by simp, by simp, Nat.le_refl _, id⟩

theorem Leads.trans (h : w.Leads v xs) (g : v.Leads u ys) : w.Leads u (ys ++ xs) where
  journal := by rw [g.journal, h.journal, List.append_assoc]
  since := by
    refine List.forall_mem_append.2 ⟨fun x hx => ?_, h.since⟩
    exact h.le.trans (g.since x hx)
  upTo := by
    refine List.forall_mem_append.2 ⟨g.upTo, fun x hx => ?_⟩
    exact (h.upTo x hx).trans g.le
  le := h.le.trans g.le
  cancelled c := g.cancelled (h.cancelled c)

theorem isCancelled_iff : w.isCancelled = true ↔ ∃ t, w.cancelAt = some t ∧ t ≤ w.now := by
  unfold isCancelled
  split <;> simp_all

theorem isCancelled_signal (w : World σ) : w.signal.isCancelled := by
  unfold signal
  split
  · assumption
  · exact isCancelled_iff.2 ⟨w.now, rfl, Nat.le_refl _⟩

/-- A world that differs in what is outside, in the files and in the slot only. -/
theorem Leads.of_eq (now : u.now = w.now) (journal : u.journal = w.journal)
    (cancelAt : u.cancelAt = w.cancelAt) : w.Leads u [] where
  journal := journal
  since := by simp
  upTo := by simp
  le := now.ge
  cancelled c := by
    rw [isCancelled_iff] at c ⊢
    rwa [cancelAt, now]

theorem reach_leads (w : World σ) (instant : Nat) : w.Leads (w.reach instant) [] where
  journal := rfl
  since := by simp
  upTo := by simp
  le := Nat.le_max_left ..
  cancelled c := by
    obtain ⟨t, at_, le⟩ := isCancelled_iff.1 c
    exact isCancelled_iff.2 ⟨t, at_, le.trans (Nat.le_max_left ..)⟩

@[simp] theorem signal_now (w : World σ) : w.signal.now = w.now := by
  unfold signal
  split <;> rfl

theorem signal_leads (w : World σ) : w.Leads w.signal [] := by
  have journal : w.signal.journal = w.journal := by
    unfold signal
    split <;> rfl
  exact ⟨journal, by simp, by simp, (signal_now w).ge, fun _ => isCancelled_signal w⟩

theorem call_leads (w : World σ) (c : Call) (r : Reaction σ α) :
    w.Leads (w.call c r).world [(w.now, c)] :=
  ⟨rfl, by simp, by simp [call], Nat.le_refl _, id⟩

theorem call_finish_leads (w v : World σ) (c : Call) (r : Reaction σ α) :
    v.Leads ((w.call c r).finish v).2 [] := by
  have answered : v.Leads { v with outside := (r.finish v.outside).2 } [] := .of_eq rfl rfl rfl
  simp only [call]
  split
  · exact answered.trans (signal_leads _)
  · exact answered

/-- What a request begins is a call, or nothing but an operation on the files. -/
theorem begin_leads (env : Environment σ) (w : World σ) (r : Request) :
    w.Leads (w.begin env r).world (r.call?.toList.map (w.now, ·)) := by
  cases r with
  | act r cutoff =>
    rw [begin, act_world]
    cases r with
    | command c => exact call_leads ..
    | pause | forever | now => exact .refl w
    | makeDirectories | write => exact .of_eq rfl rfl rfl
  | check | connect | quit => exact call_leads ..
  | settle | now | cancelled | slot => exact .refl w

theorem act_finish_leads (env : Environment σ) (w v : World σ) (cutoff : Option Nat)
    (r : Action.Request) : v.Leads ((w.act env cutoff r).finish v).2 [] := by
  have awaited : v.Leads ((w.await env r).finish v).2 [] := by
    cases r with
    | command c => exact call_finish_leads w v (.command c) (env.command w.now c w.outside)
    | pause | now | makeDirectories | write | forever => exact .refl v
  unfold act
  split
  · exact awaited
  · unfold Underway.cutAt
    split
    · exact awaited
    · split
      · exact awaited
      · exact .refl v

/-- An answer is awaited from the instant of the request on. -/
theorem act_now (w : World σ) (env : Environment σ) (cutoff : Option Nat) (r : Action.Request) :
    (w.act env cutoff r).world.now = w.now := by
  rw [act_world]
  cases r <;> rfl

theorem call_finish_now (w v : World σ) (c : Call) (r : Reaction σ α) :
    ((w.call c r).finish v).2.now = v.now := by
  simp only [call]
  split <;> simp

/-- An answer takes no time of its own. -/
theorem act_finish_now (env : Environment σ) (w v : World σ) (cutoff : Option Nat)
    (r : Action.Request) : ((w.act env cutoff r).finish v).2.now = v.now := by
  refine act_finish env w (·.now) (fun v => ?_) cutoff v
  cases r with
  | command c => exact call_finish_now w v (.command c) (env.command w.now c w.outside)
  | pause | now | makeDirectories | write | forever => rfl

/-- An answer is no call. -/
theorem finish_leads (env : Environment σ) (w v : World σ) (r : Request) :
    v.Leads ((w.begin env r).finish v).2 [] := by
  cases r with
  | act r cutoff => exact act_finish_leads env w v cutoff r
  | check c config => exact call_finish_leads w v (.check c) (env.check w.now c config w.outside)
  | connect config =>
    exact call_finish_leads w v (.connect config) (env.connect w.now config w.outside)
  | quit => exact call_finish_leads w v .quit (env.quit w.now w.outside)
  | settle | now | cancelled => exact .refl v
  | slot op => exact .of_eq rfl rfl rfl

end World

/-- A run leads to the world in which it ends or waits, with calls that its course asks for. -/
theorem Course.run_leads_of_asks {P : Request → Prop} {c : Course α} (asks : Asks P c)
    (env : Environment σ) (limit : Option Nat) (w : World σ) :
    ∃ xs, w.Leads (c.run env limit w).2 xs ∧ ∀ x ∈ xs, ∃ r, P r ∧ r.call? = some x.2 := by
  induction c generalizing w with
  | done a => exact ⟨[], .refl w, by simp⟩
  | ask r next ih =>
    have begun := World.begin_leads env w r
    have asked : ∀ x ∈ r.call?.toList.map (w.now, ·), ∃ r, P r ∧ r.call? = some x.2 := by
      intro x hx
      obtain ⟨c, hc, rfl⟩ := List.mem_map.1 hx
      exact ⟨r, asks.1, by simpa using hc⟩
    simp only [run]
    split
    · have answered := (begun.trans (World.reach_leads _ ((w.begin env r).due.getD 0))).trans
        (World.finish_leads env w _ r)
      obtain ⟨xs, rest, all⟩ := ih _ (asks.2 _) _
      exact ⟨_, answered.trans rest, List.forall_mem_append.2 ⟨all, by simpa using asked⟩⟩
    · exact ⟨_, begun, asked⟩

theorem Course.run_leads (env : Environment σ) (limit : Option Nat) (c : Course α) (w : World σ) :
    ∃ xs, w.Leads (c.run env limit w).2 xs := by
  have asks : Asks (fun _ => True) c := asks_of_ends answerable fun _ _ _ _ _ => trivial
  obtain ⟨xs, leads, -⟩ := Course.run_leads_of_asks asks env limit w
  exact ⟨xs, leads⟩

/-! ## Calls up to an instant -/

namespace World

variable {w v u : World σ} {xs ys : List (Nat × Call)}

/-- The calls that were begun since an earlier world, in order. -/
def callsSince (w u : World σ) : List (Nat × Call) := u.calls.drop w.calls.length

theorem Leads.callsSince_eq (h : w.Leads u xs) : w.callsSince u = xs.reverse := by
  simp [callsSince, calls, h.journal]

theorem Leads.callsSince_append (h : w.Leads v xs) (g : v.Leads u ys) :
    w.callsSince u = w.callsSince v ++ v.callsSince u := by
  simp [(h.trans g).callsSince_eq, h.callsSince_eq, g.callsSince_eq]

theorem callsSince_congr (same : u.journal = v.journal) : w.callsSince u = w.callsSince v := by
  simp [callsSince, calls, same]

end World

/-- A run goes on from the world in which its first request is begun. -/
theorem Course.begin_leads_run (env : Environment σ) (r : Request) (next : r.Answer → Course α)
    (w : World σ) :
    ∃ xs, (w.begin env r).world.Leads (Course.run env none (.ask r next) w).2 xs := by
  rw [run]
  dsimp only
  split
  · have answered := (World.reach_leads (w.begin env r).world
      ((w.begin env r).due.getD 0)).trans (World.finish_leads env w _ r)
    exact Exists.elim (Course.run_leads ..) fun xs rest => ⟨_, answered.trans rest⟩
  · exact ⟨[], .refl _⟩

/-- A call that a course begins with is made. -/
theorem Course.mem_callsSince_ask (env : Environment σ) {r : Request} {c : Call}
    (call : r.call? = some c) (next : r.Answer → Course α) {w v : World σ}
    {xs : List (Nat × Call)} (h : w.Leads v xs) :
    (v.now, c) ∈ w.callsSince (Course.run env none (.ask r next) v).2 := by
  obtain ⟨ys, rest⟩ := begin_leads_run env r next v
  simp [((h.trans (World.begin_leads env v r)).trans rest).callsSince_eq, call]

end UiRunner.Run
