import UiRunner.Proofs.Action.OlderNames
import UiRunner.Proofs.Run.Tour
import UiRunner.Proofs.TestCase.Sorted
import UiRunner.Rehearsal.Environment

/-!
# Cases under older names

A case may be written anew, with other names of its actions and with older names of their
parameters. What is executed stays the same, so the two runs go through the same worlds, and their
logs differ in what the actions are called.
-/
namespace UiRunner

/-- A step written anew: its action may be called by any of its names, and the chosen ones of its
parameters go by their older names. -/
inductive Step.Respelled (r : Action.Registry) : Step → Step → Prop where
  | asIs (s : Step) : Respelled r s s
  | anew {s : Step} {d : Action.Definition} (name : String) (chosen : String → Bool) :
      r.lookup s.action = .ok d → name ∈ d.names →
      Respelled r s { s with action := name, params := d.params.respell chosen s.params }

namespace Run

open UiRunner.Action

variable {σ : Type}

/-! ## One step -/

namespace Policy

variable {p : Policy} {s s' : Step}

/-- A step that is written anew comes to the same action with the same parameters, or is refused
for the same reason. -/
theorem prepare_of_respelled (builtin : p.registry = .builtin) (sorted : s.params.Sorted)
    (h : s.Respelled .builtin s') : p.prepare s' = p.prepare s := by
  cases h with
  | asIs => rfl
  | @anew d name chosen found named =>
    obtain ⟨mem, named'⟩ := mem_of_lookup_builtin found
    obtain ⟨here, visible⟩ := lookup?_of_mem_names d mem name named
    obtain ⟨-, visible'⟩ := lookup?_of_mem_names d mem s.action named'
    have coerced : coerce d.params (d.params.respell chosen s.params) = coerce d.params s.params :=
      Contract.coerce_respell (distinct_of_mem_builtins d mem) sorted
    unfold prepare
    simp only [visible, visible', builtin, found, Registry.lookup_eq_ok_iff.2 here, coerced]

theorem execute_of_respelled (builtin : p.registry = .builtin) (sorted : s.params.Sorted)
    (h : s.Respelled .builtin s') : p.execute s' = p.execute s := by
  rw [execute_eq, execute_eq, prepare_of_respelled builtin sorted h]

end Policy

/-! ## All steps -/

/-- The log in which actions are called as in these steps. -/
def Log.named (steps : List Step) (l : Log) : Log :=
  { l with entries := l.entries.mapIdx fun i e =>
      { e with action := (steps[i]?.map (·.action)).getD e.action } }

/-- The tour in which these steps are the ones that were executed. -/
def Tour.named (steps : List Step) (t : Tour σ) : Tour σ :=
  { t with turns := t.turns.mapIdx fun i turn => { turn with step := steps[i]?.getD turn.step } }

theorem Tour.named_following (t : Turn σ) (s : Step) (steps : List Step) (tour : Tour σ) :
    (tour.following [t]).named (s :: steps) =
      (tour.named steps).following [{ t with step := s }] := by
  simp [named, following, List.mapIdx_cons]

theorem Halt.close_named (h : Halt) (steps : List Step) (l : Log) :
    h.close (l.named steps) = (h.close l).named steps := by
  cases h <;> rfl

/-- Naming the steps of a tour names the actions in its log. -/
theorem Tour.named_entries (t : Tour σ) (steps : List Step) :
    ({ entries := t.entries } : Log).named steps = { entries := (t.named steps).entries } := by
  have entries : (t.entries.mapIdx fun i e =>
      { e with action := (steps[i]?.map (·.action)).getD e.action }) =
        (t.named steps).entries := by
    refine List.ext_getElem? fun i => ?_
    simp only [entries, named, List.getElem?_mapIdx, List.getElem?_map, Option.map_map]
    cases steps[i]? <;> rfl
  simp only [Log.named, entries]

namespace Policy

variable {p : Policy} {steps steps' : List Step}

theorem alike_of_respelled (builtin : p.registry = .builtin)
    (sorted : ∀ s ∈ steps, s.params.Sorted)
    (respelled : List.Forall₂ (Step.Respelled .builtin) steps steps') :
    List.Forall₂ (fun s s' => p.execute s' = p.execute s) steps steps' := by
  induction respelled with
  | nil => exact .nil
  | cons first _ ih =>
    obtain ⟨here, later⟩ := List.forall_mem_cons.1 sorted
    exact .cons (execute_of_respelled builtin here first) (ih later)

/-- Steps that are executed alike make for the same tour. -/
theorem tour_named (env : Environment σ) (k : Nat) (w : World σ)
    (alike : List.Forall₂ (fun s s' => p.execute s' = p.execute s) steps steps') :
    p.tour env k steps' w = (p.tour env k steps w).named steps' := by
  induction alike generalizing k w with
  | nil => rfl
  | @cons s s' steps steps' same _ ih =>
    rw [tour, tour, same]
    split
    · rfl
    · split
      · rfl
      · rfl
      · rename_i r v _
        split
        · simp [Tour.named]
        · rw [ih, Tour.named_following]

/-- **Older names change nothing.** Cases that are read are in order. When a case in order is
written anew, its run goes through the same worlds as before, with the same calls at the same
instants, and comes to the same log, in which the actions are called as they are now written. -/
theorem older_names_change_nothing :
    (∀ (files : Files.Tree) (path : Path) (c : TestCase), TestCase.load files path = .ok c →
      c.InOrder) ∧
    ∀ {σ : Type} (p : Policy) (env : Environment σ) (w : World σ) (c : TestCase)
      (steps : List Step), p.registry = .builtin → c.InOrder →
      List.Forall₂ (Step.Respelled .builtin) c.steps steps →
      ((p.interpret steps).run env none w).2 = ((p.interpret c.steps).run env none w).2 ∧
      ((p.interpret steps).run env none w).1.result? =
        ((p.interpret c.steps).run env none w).1.result?.map fun out =>
          (out.1.named steps, out.2) := by
  refine ⟨fun files path c => TestCase.inOrder_of_load, ?_⟩
  intro σ p env w c steps builtin inOrder respelled
  obtain ⟨world, result⟩ := p.run_interpretFrom env 1 c.steps {} w
  obtain ⟨world', result'⟩ := p.run_interpretFrom env 1 steps {} w
  rw [tour_named env 1 w (alike_of_respelled builtin inOrder respelled)] at world' result'
  refine ⟨world'.trans world.symm, ?_⟩
  rw [interpret, interpret, result, result', Option.map_map]
  refine congrArg (Option.map · _) (funext fun h => ?_)
  simp only [List.nil_append, Function.comp_apply, ← Tour.named_entries, Halt.close_named]

/-- A key press and a click with a parameter that nobody knows, both written by older names. The
key is pressed in both runs, and both refuse the click in the same words. -/
theorem older_names_change_nothing_keyPress : ∃ (log : Log) (u : World Rehearsal.State),
    (({} : Policy).interpret
      [{ action := "pressKey", params := [("key", .str "HOME")] },
        { action := "click", params := [("kind", .str "id"), ("value", .str "ok"),
          ("zoom", .bool true)] }]).run (Rehearsal.environment .deserted {}) none
        { outside := {} } = (.finished (log, none), u) ∧
    (({} : Policy).interpret
      [{ action := "press_android_key", params := [("key_code_name", .str "HOME")] },
        { action := "click_element", params := [("selector_type", .str "id"), ("value", .str "ok"),
          ("zoom", .bool true)] }]).run (Rehearsal.environment .deserted {}) none
        { outside := {} } = (.finished ({ log with entries := log.entries.mapIdx fun i e =>
          { e with action := (["press_android_key", "click_element"][i]?).getD e.action } },
            none), u) ∧
    log.entries.map (·.status) = [.success, .failure] := by
  let env := Rehearsal.environment .deserted {}
  let w : World Rehearsal.State := { outside := {} }
  let press : Step := { action := "pressKey", params := [("key", .str "HOME")] }
  let click : Step :=
    { action := "click"
      params := [("kind", .str "id"), ("value", .str "ok"), ("zoom", .bool true)] }
  let press' : Step :=
    { action := "press_android_key", params := [("key_code_name", .str "HOME")] }
  let click' : Step :=
    { action := "click_element"
      params := [("selector_type", .str "id"), ("value", .str "ok"), ("zoom", .bool true)] }
  have pressed : press.Respelled .builtin press' :=
    .anew (r := .builtin) (s := press) (d := builtins[5]) "press_android_key" (fun _ => true)
      (Registry.lookup_eq_ok_iff.2 (by decide +kernel)) (by decide)
  have params : Contract.respell [kindSpec, valueSpec, timeoutSpec] (· == "kind")
      [("kind", .str "id"), ("value", .str "ok"), ("zoom", .bool true)] =
        [("selector_type", .str "id"), ("value", .str "ok"), ("zoom", .bool true)] := by rfl
  have clicked : click.Respelled .builtin click' := by
    have anew := Step.Respelled.anew (r := .builtin) (s := click) (d := builtins[1])
      "click_element" (· == "kind") (Registry.lookup_eq_ok_iff.2 (by decide +kernel)) (by decide)
    change click.Respelled .builtin { click with
      action := "click_element"
      params := Contract.respell [kindSpec, valueSpec, timeoutSpec] (· == "kind") click.params }
      at anew
    rwa [params] at anew
  have inOrder : ∀ s ∈ [press, click], s.params.Pairwise (·.1 < ·.1) := by decide +kernel
  have finished : ((({} : Policy).interpret [press, click]).run env none w).1.result?.any
      (fun out => out.2 = none ∧ out.1.entries.map (·.status) = [.success, .failure]) = true := by
    decide +kernel
  obtain ⟨⟨log, panic⟩, result, told⟩ := (Option.any_eq_true _ _).1 finished
  obtain ⟨rfl, statuses⟩ := of_decide_eq_true told
  obtain ⟨world', result'⟩ := older_names_change_nothing.2 {} env w ⟨"Home", [press, click]⟩
    [press', click'] rfl inOrder (.cons pressed (.cons clicked .nil))
  rw [result] at result'
  refine ⟨log, _, Prod.ext (Progress.result?_eq_some_iff.1 result) rfl,
    Prod.ext (Progress.result?_eq_some_iff.1 (result'.trans ?_)) world', statuses⟩
  refine congrArg (fun entries => some ({ log with entries }, none)) ?_
  refine List.ext_getElem? fun i => ?_
  simp only [List.getElem?_mapIdx]
  rcases i with _ | _ | i <;> simp [press', click']

end Policy

end Run

end UiRunner
