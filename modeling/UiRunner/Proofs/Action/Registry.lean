import Mathlib.Data.List.Basic
import UiRunner.Action.Builtin

/-!
# What registries hold

After any number of definitions was offered, the names of the accepted ones lead to them and no
other name leads anywhere, and the catalog lists them in order. `Holds` says so of a registry; it
holds of the empty one, and `Holds.attempt` carries it over one more definition.
-/
namespace UiRunner.Action

variable {r r' : Registry} {d : Definition} {ds accepted : List Definition} {name k : String}

theorem Definition.name_mem_names (d : Definition) : d.name ∈ d.names := List.mem_cons_self

namespace Registry

theorem lookup_eq_ok_iff : r.lookup name = .ok d ↔ r.lookup? name = some d := by
  unfold lookup
  cases r.lookup? name <;> simp

theorem lookup_of_lookup?_eq_none (unknown : r.lookup? name = none) :
    r.lookup name = .error (.actionNotFound name) := by
  simp [lookup, unknown]

/-! ## One definition -/

theorem lookup?_enter (d : Definition) (r : Registry) (name k : String) :
    (enter d r name).lookup? k = if k = name then some d else r.lookup? k := by
  by_cases same : k = name <;>
    simp [lookup?, enter, List.lookup_cons, same, beq_eq_false_iff_ne.mpr]

/-- Names that were entered lead to the definition, also one that was entered twice. -/
theorem lookup?_foldl_enter (d : Definition) (names : List String) (r : Registry) (k : String) :
    (names.foldl (enter d) r).lookup? k = if k ∈ names then some d else r.lookup? k := by
  induction names generalizing r with
  | nil => simp
  | cons name names ih =>
    rw [List.foldl_cons, ih, lookup?_enter]
    by_cases later : k ∈ names
    · simp [later]
    · simp [later]

theorem order_foldl_enter (d : Definition) (names : List String) (r : Registry) :
    (names.foldl (enter d) r).order = r.order := by
  induction names generalizing r with
  | nil => rfl
  | cons name names ih => exact ih _

theorem taken?_eq_none_iff : r.taken? d = none ↔ ∀ name ∈ d.names, r.lookup? name = none := by
  simp [taken?]

theorem register_eq_error_iff :
    (∃ e, r.register d = .error e) ↔ ∃ name ∈ d.names, r.lookup? name ≠ none := by
  have taken := not_congr (taken?_eq_none_iff (r := r) (d := d))
  push Not at taken
  rw [← taken, register]
  cases r.taken? d <;> simp

/-- What accepting a definition does to lookups and to the order. -/
theorem of_register (h : r.register d = .ok r') :
    (∀ name ∈ d.names, r.lookup? name = none) ∧ r'.order = r.order ++ [d.name] ∧
      ∀ k, r'.lookup? k = if k ∈ d.names then some d else r.lookup? k := by
  unfold register at h
  cases taken : r.taken? d with
  | some name =>
    rw [taken] at h
    cases h
  | none =>
    rw [taken] at h
    obtain rfl := Except.ok.inj h
    exact ⟨taken?_eq_none_iff.1 taken, congrArg (· ++ _) (order_foldl_enter ..),
      lookup?_foldl_enter d d.names r⟩

/-! ## What a registry holds -/

/-- The names of these definitions lead to them, no other name leads anywhere, and they are listed
in this order. -/
structure Holds (r : Registry) (accepted : List Definition) : Prop where
  order : r.order = accepted.map (·.name)
  nodup : accepted.Nodup
  lookup?_eq_some_iff : ∀ name d, r.lookup? name = some d ↔ d ∈ accepted ∧ name ∈ d.names

namespace Holds

theorem empty : Holds {} [] where
  order := rfl
  nodup := .nil
  lookup?_eq_some_iff name d := by simp [lookup?]

theorem lookup?_eq_none_iff (h : r.Holds accepted) :
    r.lookup? name = none ↔ ∀ a ∈ accepted, name ∉ a.names := by
  rw [Option.eq_none_iff_forall_ne_some]
  simp [h.lookup?_eq_some_iff]

theorem lookup?_eq_some (h : r.Holds accepted) (mem : d ∈ accepted) (named : name ∈ d.names) :
    r.lookup? name = some d :=
  (h.lookup?_eq_some_iff name d).2 ⟨mem, named⟩

/-- A definition that is accepted comes last. -/
theorem register (h : r.Holds accepted) (registered : r.register d = .ok r') :
    r'.Holds (accepted ++ [d]) := by
  obtain ⟨free, order, lookup⟩ := of_register registered
  have fresh : d ∉ accepted := fun mem => by
    cases (free d.name d.name_mem_names).symm.trans (h.lookup?_eq_some mem d.name_mem_names)
  refine ⟨by simp [order, h.order], ?_, fun name a => ?_⟩
  · refine List.nodup_append.2 ⟨h.nodup, List.pairwise_singleton _ d, fun a mem b hb same => ?_⟩
    exact fresh (List.mem_singleton.1 hb ▸ same ▸ mem)
  · rw [lookup, List.mem_append, List.mem_singleton]
    by_cases named : name ∈ d.names
    · -- An accepted definition of this name would have kept `d` from being accepted.
      have none : ∀ b ∈ accepted, name ∉ b.names := h.lookup?_eq_none_iff.1 (free name named)
      rw [if_pos named, Option.some.injEq]
      constructor
      · rintro rfl
        exact ⟨.inr rfl, named⟩
      · rintro ⟨mem | rfl, named'⟩
        · exact absurd named' (none a mem)
        · rfl
    · rw [if_neg named, h.lookup?_eq_some_iff]
      constructor
      · rintro ⟨mem, named'⟩
        exact ⟨.inl mem, named'⟩
      · rintro ⟨mem | rfl, named'⟩
        · exact ⟨mem, named'⟩
        · exact absurd named' named

theorem catalog_eq (h : r.Holds accepted) : r.catalog = accepted := by
  have found : ∀ a ∈ accepted, (r.lookup? ∘ (·.name)) a = some a := fun a mem =>
    h.lookup?_eq_some mem a.name_mem_names
  rw [catalog, h.order, List.filterMap_map, List.filterMap_congr found]
  exact List.filterMap_some

theorem size_eq (h : r.Holds accepted) : r.size = accepted.length := by
  rw [size, h.order, List.length_map]

end Holds

/-! ## Any number of definitions -/

/-- Those of the definitions that are accepted when they are offered in order. -/
def acceptedOf (r : Registry) : List Definition → List Definition
  | [] => []
  | d :: ds =>
    match r.register d with
    | .ok r' => d :: r'.acceptedOf ds
    | .error _ => r.acceptedOf ds

theorem attempt_of_refused {e : Error} (refused : r.register d = .error e) : r.attempt d = r := by
  simp [attempt, refused]

/-- What a registry holds after definitions were offered: what it held, and those that it
accepted. -/
theorem Holds.registerAll (h : r.Holds accepted) (ds : List Definition) :
    (r.registerAll ds).Holds (accepted ++ r.acceptedOf ds) := by
  induction ds generalizing r accepted with
  | nil => simpa [acceptedOf, Registry.registerAll] using h
  | cons d ds ih =>
    rw [Registry.registerAll, List.foldl_cons]
    cases registered : r.register d with
    | ok r' =>
      simpa [acceptedOf, attempt, registered, Registry.registerAll] using ih (h.register registered)
    | error e =>
      simpa [acceptedOf, attempt, registered, Registry.registerAll] using ih h

/-- **Every name of an accepted definition leads to it, and no other name leads anywhere.** A
definition is refused exactly if one of its names is a name of an accepted one, and a refusal
leaves everything as it was. The catalog lists the accepted definitions in the order in which they
came. -/
theorem names_lead_to_accepted (ds : List Definition) :
    let r := registerAll {} ds
    let accepted := acceptedOf {} ds
    (∀ d, (∃ e, r.register d = .error e) ↔
      ∃ name ∈ d.names, ∃ a ∈ accepted, name ∈ a.names) ∧
    (∀ d e, r.register d = .error e → (r.attempt d).lookup = r.lookup ∧
      (r.attempt d).catalog = r.catalog ∧ (r.attempt d).size = r.size) ∧
    (∀ a ∈ accepted, ∀ name ∈ a.names, r.lookup name = .ok a) ∧
    (∀ name, (∀ a ∈ accepted, name ∉ a.names) →
      r.lookup name = .error (.actionNotFound name)) ∧
    r.catalog = accepted ∧ accepted.Nodup ∧ r.size = accepted.length := by
  intro r accepted
  have holds : r.Holds accepted := by simpa using Holds.empty.registerAll ds
  refine ⟨fun d => ?_, fun d e refused => ?_, fun a mem name named => ?_, fun name none => ?_,
    holds.catalog_eq, holds.nodup, holds.size_eq⟩
  · rw [register_eq_error_iff]
    refine exists_congr fun name => and_congr_right fun _ => ?_
    rw [Ne, holds.lookup?_eq_none_iff]
    push Not
    rfl
  · rw [attempt_of_refused refused]
    exact ⟨rfl, rfl, rfl⟩
  · exact lookup_eq_ok_iff.2 (holds.lookup?_eq_some mem named)
  · exact lookup_of_lookup?_eq_none (holds.lookup?_eq_none_iff.2 none)

/-- Four definitions are offered. The second one is called like an alias of the first one, and the
third one has an alias that is taken after one that is free; the fourth one takes that free
name. -/
theorem names_lead_to_accepted_clashes :
    let tap : Definition := { name := "tap", aliases := ["press", "tap"], behavior := .click }
    let press : Definition := { name := "press", behavior := .pressKey }
    let hold : Definition := { name := "hold", aliases := ["long", "press"], behavior := .click }
    let long : Definition := { name := "long", behavior := .wait }
    let r := registerAll {} [tap, press, hold, long]
    acceptedOf {} [tap, press, hold, long] = [tap, long] ∧ (∃ e, r.register press = .error e) ∧
      (r.attempt hold).catalog = r.catalog ∧ r.lookup "press" = .ok tap ∧
      r.lookup "long" = .ok long ∧ r.lookup "hold" = .error (.actionNotFound "hold") ∧
      r.catalog = [tap, long] := by
  intro tap press hold long r
  have accepted : acceptedOf {} [tap, press, hold, long] = [tap, long] := by decide +kernel
  obtain ⟨refused, unchanged, found, unknown, catalog, -⟩ :=
    names_lead_to_accepted [tap, press, hold, long]
  rw [accepted] at refused found unknown catalog
  have taken : ∀ d : Definition, "press" ∈ d.names → ∃ e, r.register d = .error e := fun d named =>
    (refused d).2 ⟨"press", named, tap, by simp, by decide⟩
  obtain ⟨e, late⟩ := taken hold (by decide)
  exact ⟨accepted, taken press (by decide), (unchanged hold e late).2.1,
    found tap (by simp) "press" (by decide), found long (by simp) "long" (by decide),
    unknown "hold" (by decide), catalog⟩

/-! ## The builtin registry -/

theorem acceptedOf_builtins : acceptedOf {} builtins = builtins := by decide +kernel

/-- The builtin registry holds the builtin actions. -/
theorem holds_builtins : builtin.Holds builtins := by
  have holds := Holds.empty.registerAll builtins
  rwa [List.nil_append, acceptedOf_builtins] at holds

end Registry

end UiRunner.Action
