import UiRunner.Proofs.Action.Coercion

/-!
# What actions read of their parameters

An action depends on its parameters only through the reads that it makes, each by a name and as a
kind. Its contract declares every one of them, as a parameter of that name and kind that is required
or has a default. So once coercion has accepted the parameters every read finds a value, and what
the accessors fall back on is of no consequence.
-/
namespace UiRunner.Action

open Json

/-- A name under which an action reads, and the kind of value that it reads there. -/
abbrev Read := String × Kind

namespace Params

/-- What the accessor for a kind makes of what is stored under a name. -/
def read (ps : Params) (r : Read) : Value :=
  match r.2 with
  | .string => .str (ps.str r.1)
  | .integer => .int (ps.int r.1)
  | .float => .float (ps.float r.1)
  | .boolean => .bool (ps.bool r.1)
  | .list => .list (ps.list r.1)

/-- A stored value of the kind that is read, or else what one falls back on. -/
def readOr (ps : Params) (fallback : Read → Value) (r : Read) : Value :=
  match ps.get? r.1 with
  | some v => if v.kind = r.2 then v else fallback r
  | none => fallback r

/-- The parameters as they look to an action that falls back on other values. -/
def withFallback (ps : Params) (fallback : Read → Value) (reads : List Read) : Params :=
  ⟨reads.map fun r => (r.1, ps.readOr fallback r)⟩

variable {ps : Params} {r : Read} {v : Value}

/-- An accessor gives a stored value of its kind as it is. -/
theorem read_of_get? (held : ps.get? r.1 = some v) (kind : v.kind = r.2) : ps.read r = v := by
  obtain ⟨name, k⟩ := r
  subst kind
  cases v <;> simp_all [read, Value.kind, str, str?, int, float, bool, list]

theorem readOr_of_get? (held : ps.get? r.1 = some v) (kind : v.kind = r.2)
    (fallback : Read → Value) : ps.readOr fallback r = v := by
  simp only [readOr, held, kind, ite_true]

theorem get?_withFallback (ps : Params) {reads : List Read} (nodup : (reads.map (·.1)).Nodup)
    (mem : r ∈ reads) (fallback : Read → Value) :
    (ps.withFallback fallback reads).get? r.1 = some (ps.readOr fallback r) := by
  unfold withFallback get?
  induction reads with
  | nil => cases mem
  | cons first rest ih =>
    obtain ⟨unused, nodup⟩ := List.nodup_cons.1 nodup
    rw [List.map_cons, List.lookup_cons]
    obtain rfl | later := List.mem_cons.1 mem
    · simp
    · have other : r.1 ≠ first.1 := fun same => unused (List.mem_map.2 ⟨r, later, same⟩)
      rw [beq_eq_false_iff_ne.2 other]
      exact ih nodup later

end Params

namespace Behavior

/-- What every action about an element reads. -/
def selectorReads : List Read := [("kind", .string), ("value", .string), ("timeout", .integer)]

/-- The reads that an action makes. -/
def reads : Behavior → List Read
  | launchApp => [("package", .string), ("settle_secs", .float)]
  | click => selectorReads
  | typeText => selectorReads ++ [("text", .string)]
  | waitForElement => selectorReads ++ [("visible", .boolean)]
  | assertText => selectorReads ++ [("expected", .string), ("contains", .boolean)]
  | pressKey => [("key", .string)]
  | screenshot => [("filename", .string)]
  | wait => [("seconds", .float)]

theorem nodup_reads (b : Behavior) : (b.reads.map (·.1)).Nodup := by
  cases b <;> decide

/-! ## Reads decide what an action does -/

section Agree

variable {ps ps' : Params} {name : String}

theorem str_eq (h : ps.read (name, .string) = ps'.read (name, .string)) :
    ps.str name = ps'.str name :=
  Value.str.inj h

theorem selector_eq (agree : ∀ r ∈ selectorReads, ps.read r = ps'.read r) :
    selectorOf ps = selectorOf ps' ∧ timeoutOf ps = timeoutOf ps' := by
  have kind := str_eq (agree ("kind", .string) (by simp [selectorReads]))
  have value := str_eq (agree ("value", .string) (by simp [selectorReads]))
  have timeout := Value.int.inj (agree ("timeout", .integer) (by simp [selectorReads]))
  exact ⟨by rw [selectorOf, selectorOf, kind, value], by rw [timeoutOf, timeoutOf, timeout]⟩

/-- Where the reads of an action come out the same it does the same. -/
theorem script_congr (b : Behavior) (s : Settings) (agree : ∀ r ∈ b.reads, ps.read r = ps'.read r) :
    b.script s ps = b.script s ps' := by
  cases b with
  | launchApp =>
    have package := str_eq (agree ("package", .string) (by simp [reads]))
    have settle := Value.float.inj (agree ("settle_secs", .float) (by simp [reads]))
    simp only [script, Action.launchApp, package, settle]
  | click =>
    obtain ⟨selector, timeout⟩ := selector_eq agree
    simp only [script, Action.click, selector, timeout]
  | typeText =>
    obtain ⟨agree, own⟩ := List.forall_mem_append.1 agree
    obtain ⟨selector, timeout⟩ := selector_eq agree
    have text := str_eq (own ("text", .string) (by simp))
    simp only [script, Action.typeText, selector, timeout, text]
  | waitForElement =>
    obtain ⟨agree, own⟩ := List.forall_mem_append.1 agree
    obtain ⟨selector, timeout⟩ := selector_eq agree
    have visible := Value.bool.inj (own ("visible", .boolean) (by simp))
    simp only [script, Action.waitForElement, selector, timeout, visible]
  | assertText =>
    obtain ⟨agree, own⟩ := List.forall_mem_append.1 agree
    obtain ⟨selector, timeout⟩ := selector_eq agree
    have expected := str_eq (own ("expected", .string) (by simp))
    have contains := Value.bool.inj (own ("contains", .boolean) (by simp))
    simp only [script, Action.assertText, selector, timeout, expected, contains]
  | pressKey =>
    have key := str_eq (agree ("key", .string) (by simp [reads]))
    simp only [script, Action.pressKey, key]
  | screenshot =>
    have filename := str_eq (agree ("filename", .string) (by simp [reads]))
    simp only [script, Action.screenshot, filename]
  | wait =>
    have seconds := Value.float.inj (agree ("seconds", .float) (by simp [reads]))
    simp only [script, Action.wait, seconds]

end Agree

end Behavior

/-! ## Contracts declare what is read -/

/-- The parameter always contributes a value of this kind when it is taken. -/
def Spec.Supplies (spec : Spec) (r : Read) : Prop :=
  spec.name = r.1 ∧ spec.kind = r.2 ∧
    (spec.required = true ∨ spec.default.any (·.value.kind = r.2) = true)

instance (spec : Spec) (r : Read) : Decidable (spec.Supplies r) :=
  inferInstanceAs (Decidable (_ ∧ _ ∧ _))

/-- Every read of a builtin action is declared by its contract. -/
theorem supplies_of_mem_builtins : ∀ d ∈ builtins, ∀ r ∈ d.behavior.reads,
    ∃ spec ∈ d.params, spec.Supplies r := by
  decide +kernel

variable {raw : Fields} {contract : Contract} {spec : Spec} {ps : Params} {r : Read}

/-- A parameter that supplies a read contributes a conversion or a default, of the kind that is
read. -/
theorem Spec.Supplies.exists_value (supplies : spec.Supplies r) {o : Option Value}
    (taken : spec.take raw = .ok o) : ∃ v, o = some v ∧ v.kind = r.2 ∧
      ((∃ given, spec.Gets raw given ∧ given.isNull = false ∧ convert r.2 given = some v) ∨
        (∀ given, spec.Gets raw given → given.isNull = true) ∧ spec.required = false ∧
          ∃ d, spec.default = some d ∧ d.value = v) := by
  obtain ⟨-, kind, always⟩ := supplies
  cases (Spec.take_eq_ok_iff.1 taken).2 with
  | @converted given v gets notNull converted =>
    rw [kind] at converted
    exact ⟨v, rfl, kind_of_convert converted, .inl ⟨given, gets, notNull, converted⟩⟩
  | default nulls optional =>
    obtain required | fallsBack := always
    · cases required.symm.trans optional
    · obtain ⟨d, default, ofKind⟩ := (Option.any_eq_true _ _).1 fallsBack
      exact ⟨d.value, by rw [default]; rfl, of_decide_eq_true ofKind,
        .inr ⟨nulls, optional, d, default, rfl⟩⟩

/-- Parameters that are accepted hold what each parameter of the contract contributes. -/
theorem get?_of_coerce (nodup : (contract.map Spec.name).Nodup)
    (accepted : coerce contract raw = .ok ps) (mem : spec ∈ contract) :
    ∃ o, spec.take raw = .ok o ∧ ∀ v, o = some v → ps.get? spec.name = some v := by
  have taken : takeAll raw contract {} = .ok ps := by
    unfold coerce at accepted
    split at accepted
    · cases accepted
    · exact accepted
  obtain ⟨o, contributes⟩ := exists_takeAll_eq_ok_iff.1 ⟨ps, taken⟩ spec mem
  refine ⟨o, contributes, ?_⟩
  rintro v rfl
  exact (get?_of_takeAll nodup (fun _ _ => rfl) taken).2 (.inr ⟨spec, mem, rfl, contributes⟩)

/-- **Contracts and actions fit together.** What an action does depends on its parameters only
through the reads that it makes. When coercion has accepted the parameters of a builtin action, each
of these reads finds a value of the kind that is read there, which the accessor returns: the
conversion of the value that was given, or the declared default. So the action would do the same if
the accessors fell back on any other values. -/
theorem reads_find_values :
    (∀ (b : Behavior) (s : Settings) (ps ps' : Params),
      (∀ r ∈ b.reads, ps.read r = ps'.read r) → b.script s ps = b.script s ps') ∧
    ∀ d ∈ builtins, ∀ (raw : Fields) (ps : Params), coerce d.params raw = .ok ps →
      (∀ r ∈ d.behavior.reads, ∃ spec ∈ d.params, ∃ v, spec.name = r.1 ∧ spec.kind = r.2 ∧
        ps.get? r.1 = some v ∧ v.kind = r.2 ∧ ps.read r = v ∧
        ((∃ given, spec.Gets raw given ∧ given.isNull = false ∧ convert r.2 given = some v) ∨
          (∀ given, spec.Gets raw given → given.isNull = true) ∧ spec.required = false ∧
            ∃ x, spec.default = some x ∧ x.value = v)) ∧
      ∀ (s : Settings) (fallback : Read → Value),
        d.behavior.script s (ps.withFallback fallback d.behavior.reads) =
          d.behavior.script s ps := by
  refine ⟨fun b s ps ps' => b.script_congr s, fun d builtin raw ps accepted => ?_⟩
  have finds : ∀ r ∈ d.behavior.reads, ∃ spec ∈ d.params, ∃ v, spec.name = r.1 ∧ spec.kind = r.2 ∧
      ps.get? r.1 = some v ∧ v.kind = r.2 ∧
      ((∃ given, spec.Gets raw given ∧ given.isNull = false ∧ convert r.2 given = some v) ∨
        (∀ given, spec.Gets raw given → given.isNull = true) ∧ spec.required = false ∧
          ∃ x, spec.default = some x ∧ x.value = v) := by
    intro r mem
    obtain ⟨spec, declared, supplies⟩ := supplies_of_mem_builtins d builtin r mem
    obtain ⟨o, taken, holds⟩ :=
      get?_of_coerce (distinct_of_mem_builtins d builtin).nodup_names accepted declared
    obtain ⟨v, rfl, kind, source⟩ := supplies.exists_value taken
    exact ⟨spec, declared, v, supplies.1, supplies.2.1, supplies.1 ▸ holds v rfl, kind, source⟩
  refine ⟨fun r mem => ?_, fun s fallback => ?_⟩
  · obtain ⟨spec, declared, v, name, ofKind, held, kind, source⟩ := finds r mem
    exact ⟨spec, declared, v, name, ofKind, held, kind, Params.read_of_get? held kind, source⟩
  · refine d.behavior.script_congr s fun r mem => ?_
    obtain ⟨-, -, v, -, -, held, kind, -⟩ := finds r mem
    have filled := ps.get?_withFallback d.behavior.nodup_reads mem fallback
    rw [Params.readOr_of_get? held kind] at filled
    rw [Params.read_of_get? held kind, Params.read_of_get? filled kind]

/-- Waiting reads a whole number as it reads the float, and nothing else. A click on an element
whose kind goes by its older name, whose value is a number and whose timeout is null reads the
number as a text and the timeout as its default, and does the same with other fallbacks. -/
theorem reads_find_values_click :
    (∀ s, Behavior.wait.script s ⟨[("seconds", .int 2)]⟩ =
      Behavior.wait.script s ⟨[("seconds", .float (.ofInt 2)), ("spare", .bool true)]⟩) ∧
    ∃ ps, coerce [kindSpec, valueSpec, timeoutSpec]
        [("selector_type", .str "id"), ("timeout", .null), ("value", .nat 5)] = .ok ps ∧
      ps.str "value" = "5" ∧ ps.int "timeout" = 10 ∧
      (∃ v, ps.get? "value" = some v ∧ ps.read ("value", .string) = v) ∧
      ∀ s, Behavior.click.script s (ps.withFallback (fun _ => .bool true) Behavior.click.reads) =
        Behavior.click.script s ps := by
  obtain ⟨decide_, find⟩ := reads_find_values
  refine ⟨fun s => decide_ .wait s _ _ fun r mem => ?_, ?_⟩
  · obtain rfl := List.mem_singleton.1 mem
    rfl
  · have seen : (coerce [kindSpec, valueSpec, timeoutSpec]
        [("selector_type", .str "id"), ("timeout", .null), ("value", .nat 5)]).toOption.any
        (fun ps => ps.str "value" = "5" ∧ ps.int "timeout" = 10) = true := by decide +kernel
    cases accepted : coerce [kindSpec, valueSpec, timeoutSpec]
        [("selector_type", .str "id"), ("timeout", .null), ("value", .nat 5)] with
    | error m =>
      rw [accepted] at seen
      cases seen
    | ok ps =>
      rw [accepted] at seen
      obtain ⟨value, timeout⟩ := of_decide_eq_true seen
      have builtin : Definition.mk "click" ["click_element"] _ _ .click ∈ builtins :=
        List.mem_of_getElem? (i := 1) rfl
      obtain ⟨reads, same⟩ := find _ builtin _ ps accepted
      obtain ⟨-, -, v, -, -, held, -, read, -⟩ := reads ("value", .string) (by decide)
      exact ⟨ps, rfl, value, timeout, ⟨v, held, read⟩, fun s => same s _⟩

end UiRunner.Action
