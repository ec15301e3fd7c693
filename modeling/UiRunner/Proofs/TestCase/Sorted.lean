import UiRunner.Proofs.Json.Fields
import UiRunner.TestCase.Reader

/-!
# Parameters of a case that was read

Whatever a test case is written in, the parameters of its steps stand in the order of their names,
each name once.
-/
namespace UiRunner.TestCase

variable {α β : Type}

/-- Every value that was read was read from some item. -/
theorem exists_of_mem_mapM {f : α → Option β} {xs : List α} {ys : List β}
    (h : xs.mapM f = some ys) : ∀ y ∈ ys, ∃ x ∈ xs, f x = some y := by
  induction xs generalizing ys with
  | nil =>
    obtain rfl : ys = [] := by simpa using h.symm
    simp
  | cons x xs ih =>
    simp only [List.mapM_cons, Option.pure_def, Option.bind_eq_bind, Option.bind_eq_some_iff,
      Option.some.injEq] at h
    obtain ⟨y, read, rest, later, rfl⟩ := h
    refine List.forall_mem_cons.2 ⟨⟨x, List.mem_cons_self, read⟩, fun z hz => ?_⟩
    obtain ⟨x', mem, read'⟩ := ih later z hz
    exact ⟨x', List.mem_cons_of_mem _ mem, read'⟩

/-- What a field comes to satisfies what its default and every value read do. -/
theorem fieldOr_of {P : β → Prop} {absent b : β} {read : α → Option β} {field : Option α}
    (h : fieldOr absent read field = some b) (default : P absent)
    (each : ∀ v b, read v = some b → P b) : P b := by
  cases field with
  | none => exact Option.some.inj h ▸ default
  | some v => exact each v b h

/-- The parameters of every step stand in order. -/
def InOrder (c : TestCase) : Prop := ∀ s ∈ c.steps, s.params.Sorted

namespace OfJson

open Json

theorem sorted_of_params {n : Nat} {t : Tree} {fields : Fields} (h : params? n t = some fields) :
    fields.Sorted := by
  cases t with
  | obj entries =>
    obtain ⟨v, value, rfl⟩ := Option.map_eq_some_iff.1 h
    rw [Tree.valueAt?] at value
    split at value
    · cases value
    · obtain ⟨fields, -, rfl⟩ := Option.map_eq_some_iff.1 value
      exact Fields.sorted_ofList fields
  | null | bool | num | str | arr => cases h

theorem sorted_of_step {t : Tree} {s : Step} (h : step? t = some s) : s.params.Sorted := by
  cases t with
  | obj entries =>
    simp only [step?, Option.bind_eq_bind, Option.bind_eq_some_iff] at h
    obtain ⟨fields, -, _, -, action, -, field, -, params, read, _, -, notes, -, made⟩ := h
    obtain rfl := Option.some.inj made
    exact fieldOr_of read .nil fun _ _ => sorted_of_params
  | arr items =>
    simp only [step?, Option.bind_eq_bind, Option.bind_eq_some_iff] at h
    obtain ⟨action, -, params, read, notes, -, made⟩ := h
    split at made
    · cases made
    · obtain rfl := Option.some.inj made
      exact fieldOr_of read .nil fun _ _ => sorted_of_params
  | null | bool | num | str => cases h

theorem sorted_of_steps {t : Tree} {steps : List Step} (h : steps? t = some steps) :
    ∀ s ∈ steps, s.params.Sorted := by
  cases t with
  | arr items =>
    intro s hs
    obtain ⟨t, -, read⟩ := exists_of_mem_mapM h s hs
    exact sorted_of_step read
  | null | bool | num | str | obj => cases h

theorem inOrder_of_case {t : Tree} {c : TestCase} (h : case? t = some c) : c.InOrder := by
  cases t with
  | obj entries =>
    simp only [case?, Option.bind_eq_bind, Option.bind_eq_some_iff] at h
    obtain ⟨fields, -, _, -, name, -, _, -, steps, read, made⟩ := h
    obtain rfl := Option.some.inj made
    exact fieldOr_of (P := fun steps => ∀ s ∈ steps, s.params.Sorted) read (by simp)
      fun _ _ => sorted_of_steps
  | arr items =>
    simp only [case?, Option.bind_eq_bind, Option.bind_eq_some_iff] at h
    obtain ⟨name, -, steps, read, made⟩ := h
    split at made
    · cases made
    · obtain rfl := Option.some.inj made
      exact fieldOr_of (P := fun steps => ∀ s ∈ steps, s.params.Sorted) read (by simp)
        fun _ _ => sorted_of_steps
  | null | bool | num | str => cases h

end OfJson

namespace OfYaml

theorem sorted_of_params {n : Nat} {y : Yaml} {fields : Json.Fields}
    (h : params? n y = some fields) : fields.Sorted := by
  simp only [params?, Option.bind_eq_bind, Option.bind_eq_some_iff, Option.map_eq_some_iff] at h
  obtain ⟨_, -, entries, -, rfl⟩ := h
  exact Json.Fields.sorted_ofList entries

theorem sorted_of_step {y : Yaml} {s : Step} (h : step? y = some s) : s.params.Sorted := by
  simp only [step?, Option.bind_eq_bind, Option.bind_eq_some_iff] at h
  obtain ⟨fields, -, _, -, action, -, field, -, params, read, _, -, notes, -, made⟩ := h
  obtain rfl := Option.some.inj made
  exact fieldOr_of read .nil fun _ _ => sorted_of_params

theorem inOrder_of_case {y : Yaml} {c : TestCase} (h : case? y = some c) : c.InOrder := by
  simp only [case?, Option.bind_eq_bind, Option.bind_eq_some_iff] at h
  obtain ⟨fields, -, _, -, name, -, _, -, steps, read, made⟩ := h
  obtain rfl := Option.some.inj made
  refine fieldOr_of (P := fun steps => ∀ s ∈ steps, s.params.Sorted) read (by simp) ?_
  intro y steps read s hs
  simp only [steps?, Option.bind_eq_bind, Option.bind_eq_some_iff] at read
  obtain ⟨items, -, all⟩ := read
  obtain ⟨_, -, read⟩ := exists_of_mem_mapM all s hs
  exact sorted_of_step read

end OfYaml

/-- Cases that are read from a file are in order. -/
theorem inOrder_of_load {files : Files.Tree} {path : Path} {c : TestCase}
    (h : load files path = .ok c) : c.InOrder := by
  unfold load at h
  split at h
  · cases h
  · split at h
    · cases h
    · rename_i text _ c' read
      split at h
      · cases h
      · obtain rfl := Except.ok.inj h
        unfold ofText? at read
        split at read
        · obtain ⟨_, -, read⟩ := Option.bind_eq_some_iff.1 read
          exact OfYaml.inOrder_of_case read
        · obtain ⟨_, -, read⟩ := Option.bind_eq_some_iff.1 read
          exact OfJson.inOrder_of_case read

end UiRunner.TestCase
