import Mathlib.Data.List.Nodup
import Mathlib.Data.List.Pairwise
import UiRunner.Action.Coercion
import UiRunner.Proofs.Action.Registry
import UiRunner.Proofs.Json.Fields

/-!
# Parameters under older names

A parameter may be written under its older name. Where no name of a contract belongs to two of its
parameters, writing some of them so changes nothing about what coercion makes of them, also when it
refuses them.
-/
namespace UiRunner.Action

open Json

/-- All names that a parameter can be given by. -/
def Spec.names (spec : Spec) : List String := spec.name :: spec.olderName.toList

namespace Contract

/-- No name stands for two parameters, and none stands twice. -/
def Distinct (contract : Contract) : Prop := (contract.flatMap Spec.names).Nodup

instance (contract : Contract) : Decidable contract.Distinct :=
  inferInstanceAs (Decidable (contract.flatMap Spec.names).Nodup)

/-- How a key is written when the chosen parameters go by their older names. One that is given by
both of its names stays as it is. -/
def olderKey (contract : Contract) (chosen : String → Bool) (raw : Fields) (key : String) :
    String :=
  match (contract.find? (·.name == key)).bind Spec.olderName with
  | some older => if chosen key && (raw.get? older).isNone then older else key
  | none => key

/-- The same parameters, the chosen ones under their older names. -/
def respell (contract : Contract) (chosen : String → Bool) (raw : Fields) : Fields :=
  .ofList (raw.map fun e => (contract.olderKey chosen raw e.1, e.2))

variable {contract : Contract} {chosen : String → Bool} {raw : Fields} {spec spec' : Spec}
  {key key' older name : String} {v : Json}

/-! ## Names of a contract -/

theorem accepts_iff : contract.accepts key = true ↔ ∃ spec ∈ contract, key ∈ spec.names := by
  have named : ∀ spec : Spec, spec.accepts key = true ↔ key ∈ spec.names := fun spec => by
    cases older : spec.olderName <;> simp [Spec.accepts, Spec.names, older, eq_comm (a := key)]
  simp only [accepts, List.any_eq_true, named]

namespace Distinct

/-- A name tells the parameter. -/
theorem eq_of_mem_names (distinct : contract.Distinct) (name : String) (held : spec ∈ contract)
    (held' : spec' ∈ contract) (named : name ∈ spec.names) (named' : name ∈ spec'.names) :
    spec = spec' := by
  obtain ⟨-, disjoint⟩ := List.nodup_flatMap.1 distinct
  have : Std.Symm (Function.onFun List.Disjoint Spec.names) :=
    ⟨fun _ _ h _ named other => h other named⟩
  by_contra different
  exact disjoint.forall held held' different named named'

theorem name_ne_olderName (distinct : contract.Distinct) (held : spec ∈ contract)
    (named : spec.olderName = some older) : spec.name ≠ older := by
  have nodup := (List.nodup_flatMap.1 distinct).1 spec held
  rintro rfl
  simp [Spec.names, named] at nodup

end Distinct

/-! ## Keys -/

/-- A key stays, or it is the name of a parameter whose older name is free. -/
theorem olderKey_cases (contract : Contract) (chosen : String → Bool) (raw : Fields)
    (key : String) : contract.olderKey chosen raw key = key ∨
      ∃ spec ∈ contract, spec.name = key ∧
        spec.olderName = some (contract.olderKey chosen raw key) ∧
        raw.get? (contract.olderKey chosen raw key) = none := by
  unfold olderKey
  split
  · rename_i older found
    split
    · rename_i free
      obtain ⟨spec, first, named⟩ := Option.bind_eq_some_iff.1 found
      refine .inr ⟨spec, List.mem_of_find?_eq_some first, ?_, named, ?_⟩
      · simpa using List.find?_some first
      · exact Option.isNone_iff_eq_none.1 (Bool.and_eq_true_iff.1 free).2
    · exact .inl rfl
  · exact .inl rfl

/-- Two keys that are both given are not written alike. -/
theorem olderKey_inj (distinct : contract.Distinct) (given : (raw.get? key).isSome)
    (given' : (raw.get? key').isSome)
    (same : contract.olderKey chosen raw key = contract.olderKey chosen raw key') :
    key = key' := by
  obtain stays | ⟨spec, held, rfl, named, free⟩ := olderKey_cases contract chosen raw key
  · obtain stays' | ⟨spec', held', rfl, named', free'⟩ := olderKey_cases contract chosen raw key'
    · rw [← stays, ← stays', same]
    · rw [← same, stays] at free'
      simp [free'] at given
  · obtain stays' | ⟨spec', held', rfl, named', free'⟩ := olderKey_cases contract chosen raw key'
    · rw [same, stays'] at free
      simp [free] at given'
    · rw [← same] at named'
      have one : spec = spec' :=
        distinct.eq_of_mem_names (contract.olderKey chosen raw spec.name) held held'
          (by simp [Spec.names, named]) (by simp [Spec.names, named'])
      rw [one]

/-- What can be looked up among the respelled parameters. -/
theorem get?_respell_eq_some_iff (distinct : contract.Distinct) (sorted : raw.Sorted) :
    (contract.respell chosen raw).get? name = some v ↔
      ∃ key, raw.get? key = some v ∧ contract.olderKey chosen raw key = name := by
  have nodup : ((raw.map fun e => (contract.olderKey chosen raw e.1, e.2)).map Prod.fst).Nodup := by
    have keys : (raw.map fun e => (contract.olderKey chosen raw e.1, e.2)).map Prod.fst =
        (raw.map Prod.fst).map (contract.olderKey chosen raw) := by simp
    rw [keys]
    refine List.Nodup.map_on (fun key held key' held' => ?_) sorted.nodup
    obtain ⟨e, he, rfl⟩ := List.mem_map.1 held
    obtain ⟨e', he', rfl⟩ := List.mem_map.1 held'
    refine olderKey_inj distinct ?_ ?_
    · simp [(Fields.get?_eq_some_iff sorted.nodup).2 he]
    · simp [(Fields.get?_eq_some_iff sorted.nodup).2 he']
  rw [respell, Fields.get?_ofList_eq_some_iff nodup]
  simp [Fields.get?_eq_some_iff sorted.nodup]

/-- Only the name itself is written so. -/
theorem olderKey_eq_name_iff (distinct : contract.Distinct) (held : spec ∈ contract) :
    contract.olderKey chosen raw key = spec.name ↔
      key = spec.name ∧ contract.olderKey chosen raw spec.name = spec.name := by
  refine ⟨fun written => ?_, fun ⟨same, stays⟩ => same ▸ stays⟩
  obtain stays | ⟨spec', held', rfl, named, -⟩ := olderKey_cases contract chosen raw key
  · rw [stays] at written
    exact ⟨written, written ▸ stays⟩
  · rw [written] at named
    obtain rfl : spec' = spec := distinct.eq_of_mem_names spec.name held' held
      (by simp [Spec.names, named]) List.mem_cons_self
    exact absurd rfl (distinct.name_ne_olderName held named)

/-- What is written by an older name is that name, or the name of its parameter. -/
theorem olderKey_eq_olderName_iff (distinct : contract.Distinct) (held : spec ∈ contract)
    (named : spec.olderName = some older) : contract.olderKey chosen raw key = older ↔
      key = older ∨ key = spec.name ∧ contract.olderKey chosen raw spec.name = older := by
  have mem : older ∈ spec.names := by simp [Spec.names, named]
  constructor
  · intro written
    obtain stays | ⟨spec', held', rfl, named', -⟩ := olderKey_cases contract chosen raw key
    · exact .inl (stays ▸ written)
    · rw [written] at named'
      obtain rfl : spec' = spec := distinct.eq_of_mem_names older held' held
        (by simp [Spec.names, named']) mem
      exact .inr ⟨rfl, written⟩
  · rintro (rfl | ⟨rfl, written⟩)
    · obtain stays | ⟨spec', held', same, -, -⟩ := olderKey_cases contract chosen raw key
      · exact stays
      · obtain rfl : spec' = spec := distinct.eq_of_mem_names key held' held
          (by simp [Spec.names, same]) mem
        exact absurd same (distinct.name_ne_olderName held named)
    · exact written

/-! ## Coercion -/

/-- A name that no other key is written by is found as before. -/
theorem get?_respell_of_stays (distinct : contract.Distinct) (sorted : raw.Sorted)
    (only : ∀ key, contract.olderKey chosen raw key = name ↔ key = name) :
    (contract.respell chosen raw).get? name = raw.get? name := by
  refine Option.ext fun v => ?_
  rw [get?_respell_eq_some_iff distinct sorted]
  simp [only]

/-- A parameter that is written by its older name is found there instead. -/
theorem get?_respell_of_moves (distinct : contract.Distinct) (sorted : raw.Sorted)
    (held : spec ∈ contract) (named : spec.olderName = some older)
    (moves : contract.olderKey chosen raw spec.name = older) (free : raw.get? older = none) :
    (contract.respell chosen raw).get? spec.name = none ∧
      (contract.respell chosen raw).get? older = raw.get? spec.name := by
  have different := distinct.name_ne_olderName held named
  refine ⟨Option.eq_none_iff_forall_ne_some.2 fun v found => ?_, Option.ext fun v => ?_⟩
  · obtain ⟨key, -, written⟩ := (get?_respell_eq_some_iff distinct sorted).1 found
    have stays := ((olderKey_eq_name_iff distinct held).1 written).2
    exact different (stays.symm.trans moves)
  · rw [get?_respell_eq_some_iff distinct sorted]
    simp only [olderKey_eq_olderName_iff distinct held named, moves, and_true]
    constructor
    · rintro ⟨key, given, rfl | rfl⟩
      · rw [free] at given
        cases given
      · exact given
    · intro given
      exact ⟨spec.name, given, .inr rfl⟩

/-- What is given for a parameter does not depend on the name that it is given by. -/
theorem given_respell (distinct : contract.Distinct) (sorted : raw.Sorted)
    (held : spec ∈ contract) : given (contract.respell chosen raw) spec = given raw spec := by
  obtain stays | ⟨spec', held', same, named, free⟩ :=
    olderKey_cases contract chosen raw spec.name
  · have name : (contract.respell chosen raw).get? spec.name = raw.get? spec.name :=
      get?_respell_of_stays distinct sorted fun key => by
        rw [olderKey_eq_name_iff distinct held, and_iff_left stays]
    have older : ∀ a, spec.olderName = some a →
        (contract.respell chosen raw).get? a = raw.get? a := fun a named =>
      get?_respell_of_stays distinct sorted fun key => by
        have different := distinct.name_ne_olderName held named
        rw [olderKey_eq_olderName_iff distinct held named, stays]
        simp [different]
    cases named : spec.olderName with
    | none => simp [given, named, name]
    | some a => simp [given, named, name, older a named]
  · obtain rfl : spec' = spec := distinct.eq_of_mem_names spec.name held' held
      (by simp [Spec.names, same]) List.mem_cons_self
    obtain ⟨name, older⟩ := get?_respell_of_moves distinct sorted held named rfl free
    cases found : raw.get? spec'.name <;> simp [given, named, name, older, free, found]

theorem take_respell (distinct : contract.Distinct) (sorted : raw.Sorted)
    (held : spec ∈ contract) :
    spec.take (contract.respell chosen raw) = spec.take raw := by
  rw [Spec.take, Spec.take, given_respell distinct sorted held]

theorem takeAll_congr {raw raw' : Fields} {specs : Contract}
    (same : ∀ spec ∈ specs, spec.take raw' = spec.take raw) (ps : Params) :
    takeAll raw' specs ps = takeAll raw specs ps := by
  induction specs generalizing ps with
  | nil => rfl
  | cons spec rest ih =>
    obtain ⟨first, later⟩ := List.forall_mem_cons.1 same
    rw [takeAll, takeAll, first]
    split
    · rfl
    · exact ih later ps
    · exact ih later _

/-- A key is written by a name that the contract knows exactly if the contract knows the key, and
unknown keys stay. -/
theorem accepts_olderKey (contract : Contract) (chosen : String → Bool) (raw : Fields)
    (key : String) :
    contract.accepts (contract.olderKey chosen raw key) = contract.accepts key := by
  obtain stays | ⟨spec, held, rfl, named, -⟩ := olderKey_cases contract chosen raw key
  · rw [stays]
  · rw [accepts_iff.2 ⟨spec, held, List.mem_cons_self⟩,
      accepts_iff.2 ⟨spec, held, by simp [Spec.names, named]⟩]

/-- The fields that a contract does not know are the same, in the same order. -/
theorem filter_respell (distinct : contract.Distinct) (sorted : raw.Sorted) :
    (contract.respell chosen raw).filter (fun e => !contract.accepts e.1) =
      raw.filter fun e => !contract.accepts e.1 := by
  refine Fields.Sorted.ext ((Fields.sorted_ofList _).filter _) (sorted.filter _) fun k => ?_
  rw [Fields.get?_filter (fun k => !contract.accepts k),
    Fields.get?_filter (fun k => !contract.accepts k)]
  cases known : contract.accepts k with
  | true => rfl
  | false =>
    refine get?_respell_of_stays distinct sorted fun key => ?_
    obtain stays | ⟨spec, held, rfl, named, -⟩ := olderKey_cases contract chosen raw key
    · rw [stays]
    · have names : contract.accepts spec.name = true :=
        accepts_iff.2 ⟨spec, held, List.mem_cons_self⟩
      -- The parameter and its older name are both known, so neither of them is `k`.
      constructor
      · rintro rfl
        rw [accepts_olderKey, names] at known
        cases known
      · rintro rfl
        rw [names] at known
        cases known

/-- Older names change nothing about what coercion answers. -/
theorem coerce_respell (distinct : contract.Distinct) (sorted : raw.Sorted) :
    coerce contract (contract.respell chosen raw) = coerce contract raw := by
  have unknown : (contract.respell chosen raw).find? (fun e => !contract.accepts e.1) =
      raw.find? fun e => !contract.accepts e.1 := by
    rw [← List.head?_filter, ← List.head?_filter, filter_respell distinct sorted]
  rw [coerce, coerce, unknown]
  split
  · rfl
  · exact takeAll_congr (fun spec held => take_respell distinct sorted held) {}

end Contract

/-! ## Builtin actions -/

/-- A builtin action that is found is called by one of its names. -/
theorem mem_of_lookup_builtin {name : String} {d : Definition}
    (found : Registry.builtin.lookup name = .ok d) : d ∈ builtins ∧ name ∈ d.names := by
  exact (Registry.holds_builtins.lookup?_eq_some_iff name d).1 (Registry.lookup_eq_ok_iff.1 found)

/-- In the contract of a builtin action no name stands for two parameters. -/
theorem distinct_of_mem_builtins : ∀ d ∈ builtins, d.params.Distinct := by decide +kernel

/-- A builtin action is found by each of its names, and none of them is blank. -/
theorem lookup?_of_mem_names : ∀ d ∈ builtins, ∀ name ∈ d.names,
    Registry.builtin.lookup? name = some d ∧ Text.isBlankText name = false := by decide +kernel

end UiRunner.Action
