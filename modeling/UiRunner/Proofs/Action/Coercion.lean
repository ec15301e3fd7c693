import UiRunner.Proofs.Action.OlderNames

/-!
# What coercion decides

Parameters are accepted exactly if they meet the contract: no key is unknown, and no parameter has a
fault. What is accepted holds the converted values and the defaults and nothing else; what is
refused is blamed on the smallest unknown key, or else on the first parameter of the contract that
has a fault.
-/
namespace UiRunner.Action

open Json

variable {raw : Fields} {contract : Contract} {spec : Spec} {ps ps' : Params} {m : Mismatch}

/-- A converted value is of the kind that it was converted to. -/
theorem kind_of_convert {kind : Kind} {v : Json} {x : Value} (h : convert kind v = some x) :
    x.kind = kind := by
  unfold convert at h
  cases kind with
  | string | list =>
    dsimp only at h
    split at h <;> cases h <;> rfl
  | integer =>
    dsimp only at h
    split at h
    · obtain ⟨i, -, rfl⟩ := Option.map_eq_some_iff.1 h
      rfl
    · obtain ⟨i, -, rfl⟩ := Option.map_eq_some_iff.1 h
      rfl
    · cases h
  | float =>
    dsimp only at h
    split at h
    · cases h
      rfl
    · obtain ⟨y, -, rfl⟩ := Option.map_eq_some_iff.1 h
      rfl
    · cases h
  | boolean =>
    dsimp only at h
    split at h
    · cases h
      rfl
    · split at h <;> cases h <;> rfl
    · obtain ⟨b, -, rfl⟩ := Option.map_eq_some_iff.1 h
      rfl
    · cases h

/-! ## One parameter -/

namespace Spec

/-- A value is given for the parameter, under one of its names. -/
def Gets (spec : Spec) (raw : Fields) (v : Json) : Prop :=
  ∃ name ∈ spec.names, raw.get? name = some v

/-- Something is given under the name of the parameter, and something under its older name. -/
def Doubled (spec : Spec) (raw : Fields) (older : String) : Prop :=
  spec.olderName = some older ∧ (raw.get? spec.name).isSome ∧ (raw.get? older).isSome

/-- What the parameter contributes: the conversion of a value that is not null or, where no other
value is given and none is required, the default. -/
inductive Yields (spec : Spec) (raw : Fields) : Option Value → Prop where
  | converted {v : Json} {x : Value} : spec.Gets raw v → v.isNull = false →
      convert spec.kind v = some x → Yields spec raw (some x)
  | default : (∀ v, spec.Gets raw v → v.isNull = true) → spec.required = false →
      Yields spec raw (spec.default.map Default.value)

/-- What is wrong with what is given for the parameter. -/
inductive Fault (spec : Spec) (raw : Fields) : Mismatch → Prop where
  | twice {older : String} : spec.Doubled raw older → Fault spec raw (.twice spec.name older)
  | unconvertible {v : Json} : (∀ older, ¬ spec.Doubled raw older) → spec.Gets raw v →
      v.isNull = false → convert spec.kind v = none →
      Fault spec raw (.unconvertible spec.name spec.kind v)
  | missing : (∀ older, ¬ spec.Doubled raw older) → (∀ v, spec.Gets raw v → v.isNull = true) →
      spec.required = true → Fault spec raw (.missing spec.name)

theorem gets_iff {v : Json} : spec.Gets raw v ↔
    raw.get? spec.name = some v ∨
      ∃ older, spec.olderName = some older ∧ raw.get? older = some v := by
  simp [Gets, names]

theorem given_of_doubled {older : String} (doubled : spec.Doubled raw older) :
    given raw spec = .error (.twice spec.name older) := by
  obtain ⟨named, here, there⟩ := doubled
  obtain ⟨v, here⟩ := Option.isSome_iff_exists.1 here
  obtain ⟨u, there⟩ := Option.isSome_iff_exists.1 there
  simp [given, named, here, there]

/-- A parameter is given twice, not at all, or one value is given for it. -/
theorem given_cases (raw : Fields) (spec : Spec) :
    (∃ older, spec.Doubled raw older) ∨
      (∀ older, ¬ spec.Doubled raw older) ∧
        ((∀ v, ¬ spec.Gets raw v) ∧ given raw spec = .ok none ∨
          ∃ v, (∀ u, spec.Gets raw u ↔ u = v) ∧ given raw spec = .ok (some v)) := by
  cases named : spec.olderName with
  | none =>
    refine .inr ⟨by simp [Doubled, named], ?_⟩
    cases here : raw.get? spec.name with
    | none => exact .inl ⟨by simp [gets_iff, named, here], by simp [given, named, here]⟩
    | some v =>
      exact .inr ⟨v, by simp [gets_iff, named, here, eq_comm], by simp [given, named, here]⟩
  | some older =>
    cases here : raw.get? spec.name with
    | none =>
      refine .inr ⟨by simp [Doubled, here], ?_⟩
      cases there : raw.get? older with
      | none =>
        exact .inl ⟨by simp [gets_iff, named, here, there], by simp [given, named, here, there]⟩
      | some v =>
        exact .inr ⟨v, by simp [gets_iff, named, here, there, eq_comm],
          by simp [given, named, here, there]⟩
    | some v =>
      cases there : raw.get? older with
      | none =>
        refine .inr ⟨by simp [Doubled, named, there], .inr ⟨v, ?_, ?_⟩⟩
        · simp [gets_iff, named, here, there, eq_comm]
        · simp [given, named, here, there]
      | some u =>
        exact .inl ⟨older, named, by simp [here], by simp [there]⟩

theorem given_of_gets {v : Json} (once : ∀ older, ¬ spec.Doubled raw older)
    (gets : spec.Gets raw v) : given raw spec = .ok (some v) := by
  obtain ⟨older, doubled⟩ | ⟨-, ⟨nothing, -⟩ | ⟨u, only, given⟩⟩ := given_cases raw spec
  · exact absurd doubled (once older)
  · exact absurd gets (nothing v)
  · rw [(only v).1 gets, given]

theorem given_of_nulls (once : ∀ older, ¬ spec.Doubled raw older)
    (nulls : ∀ v, spec.Gets raw v → v.isNull = true) :
    given raw spec = .ok none ∨ given raw spec = .ok (some .null) := by
  obtain ⟨older, doubled⟩ | ⟨-, ⟨-, given⟩ | ⟨v, only, given⟩⟩ := given_cases raw spec
  · exact absurd doubled (once older)
  · exact .inl given
  · have null := nulls v ((only v).2 rfl)
    cases v with
    | null => exact .inr given
    | _ => cases null

theorem take_of_value {v : Json} (value : given raw spec = .ok (some v))
    (notNull : v.isNull = false) : spec.take raw = match convert spec.kind v with
      | some x => .ok (some x)
      | none => .error (.unconvertible spec.name spec.kind v) := by
  rw [take, value]
  cases v with
  | null => cases notNull
  | _ => rfl

theorem take_of_null (null : given raw spec = .ok none ∨ given raw spec = .ok (some .null)) :
    spec.take raw = if spec.required then .error (.missing spec.name)
      else .ok (spec.default.map Default.value) := by
  obtain null | null := null <;> rw [take, null]

/-- A parameter with a fault is refused for it. -/
theorem Fault.take_eq (fault : spec.Fault raw m) : spec.take raw = .error m := by
  cases fault with
  | twice doubled => rw [take, given_of_doubled doubled]
  | unconvertible once gets notNull converted =>
    rw [take_of_value (given_of_gets once gets) notNull, converted]
  | missing once nulls required => rw [take_of_null (given_of_nulls once nulls), if_pos required]

theorem Yields.take_eq {o : Option Value} (once : ∀ older, ¬ spec.Doubled raw older)
    (yields : spec.Yields raw o) : spec.take raw = .ok o := by
  cases yields with
  | converted gets notNull converted =>
    rw [take_of_value (given_of_gets once gets) notNull, converted]
  | default nulls optional => simp [take_of_null (given_of_nulls once nulls), optional]

/-- A parameter that has no fault contributes something. -/
theorem fault_or_yields (raw : Fields) (spec : Spec) :
    (∃ m, spec.Fault raw m) ∨
      (∀ older, ¬ spec.Doubled raw older) ∧ ∃ o, spec.Yields raw o := by
  by_cases doubled : ∃ older, spec.Doubled raw older
  · obtain ⟨older, doubled⟩ := doubled
    exact .inl ⟨_, .twice doubled⟩
  · have once : ∀ older, ¬ spec.Doubled raw older := by simpa using doubled
    by_cases value : ∃ v, spec.Gets raw v ∧ v.isNull = false
    · obtain ⟨v, gets, notNull⟩ := value
      cases converted : convert spec.kind v with
      | none => exact .inl ⟨_, .unconvertible once gets notNull converted⟩
      | some x => exact .inr ⟨once, _, .converted gets notNull converted⟩
    · have nulls : ∀ v, spec.Gets raw v → v.isNull = true := by simpa using value
      cases required : spec.required with
      | true => exact .inl ⟨_, .missing once nulls required⟩
      | false => exact .inr ⟨once, _, .default nulls required⟩

theorem take_eq_ok_iff {o : Option Value} :
    spec.take raw = .ok o ↔ (∀ older, ¬ spec.Doubled raw older) ∧ spec.Yields raw o := by
  refine ⟨fun taken => ?_, fun ⟨once, yields⟩ => yields.take_eq once⟩
  obtain ⟨m, fault⟩ | ⟨once, o', yields⟩ := fault_or_yields raw spec
  · cases taken.symm.trans fault.take_eq
  · cases taken.symm.trans (yields.take_eq once)
    exact ⟨once, yields⟩

end Spec

/-! ## All parameters -/

variable {specs : Contract} {name : String} {x : Value}

theorem takeAll_cons_of_ok {o : Option Value} (taken : spec.take raw = .ok o) (specs : Contract)
    (ps : Params) : takeAll raw (spec :: specs) ps =
      takeAll raw specs (o.elim ps (ps.set spec.name)) := by
  rw [takeAll, taken]
  cases o <;> rfl

theorem exists_takeAll_eq_ok_iff : (∃ ps', takeAll raw specs ps = .ok ps') ↔
    ∀ spec ∈ specs, ∃ o, spec.take raw = .ok o := by
  induction specs generalizing ps with
  | nil => simp [takeAll]
  | cons spec rest ih =>
    cases taken : spec.take raw with
    | error m => simp [takeAll, taken]
    | ok o => simp [takeAll_cons_of_ok taken, ih, taken]

/-- What is taken is held under the names of its parameters, and nothing else is. -/
theorem get?_of_takeAll (nodup : (specs.map Spec.name).Nodup)
    (fresh : ∀ spec ∈ specs, ps.get? spec.name = none) (taken : takeAll raw specs ps = .ok ps') :
    ps'.get? name = some x ↔
      ps.get? name = some x ∨ ∃ spec ∈ specs, spec.name = name ∧ spec.take raw = .ok (some x) := by
  induction specs generalizing ps with
  | nil =>
    cases taken
    simp
  | cons spec rest ih =>
    obtain ⟨unused, nodup⟩ := List.nodup_cons.1 nodup
    obtain ⟨free, fresh⟩ := List.forall_mem_cons.1 fresh
    cases first : spec.take raw with
    | error m =>
      rw [takeAll, first] at taken
      cases taken
    | ok o =>
      rw [takeAll_cons_of_ok first] at taken
      cases o with
      | none =>
        rw [ih nodup fresh taken]
        simp [first]
      | some y =>
        have apart : ∀ s ∈ rest, s.name ≠ spec.name := fun s held same =>
          unused (same ▸ List.mem_map_of_mem held)
        have stillFresh : ∀ s ∈ rest, (ps.set spec.name y).get? s.name = none := fun s held => by
          rw [Params.get?_set, if_neg (apart s held), fresh s held]
        rw [ih nodup stillFresh taken, Params.get?_set]
        by_cases same : name = spec.name
        · subst same
          have none : ¬ ∃ s ∈ rest, s.name = spec.name ∧ s.take raw = .ok (some x) := by
            rintro ⟨s, held, named, -⟩
            exact apart s held named
          simp [first, free, none]
        · simp [same, first, Ne.symm same]

/-! ## Unknown keys -/

namespace Contract

/-- The names of parameters are different where all names are. -/
theorem Distinct.nodup_names (distinct : contract.Distinct) : (contract.map Spec.name).Nodup := by
  obtain ⟨-, disjoint⟩ := List.nodup_flatMap.1 distinct
  refine List.pairwise_map.2 (disjoint.imp fun apart same => ?_)
  exact apart List.mem_cons_self (same ▸ List.mem_cons_self)

end Contract

end UiRunner.Action
