import Mathlib.Data.List.Induction
import Mathlib.Data.List.Nodup
import UiRunner.Json.Value

/-!
# Fields in order

Inserting keeps fields in the order of their names. Fields in order hold exactly what can be looked
up in them, and so they are told apart by looking up.
-/
namespace UiRunner.Json.Fields

variable {fields other entries : Fields} {k name : String} {v value : Json}

/-! ## Looking up and holding -/

theorem mem_of_get? (h : fields.get? k = some v) : (k, v) ∈ fields := by
  induction fields with
  | nil => cases h
  | cons e rest ih =>
    rw [get?_cons] at h
    split at h
    · obtain rfl := Option.some.inj h
      simp [*]
    · exact List.mem_cons_of_mem _ (ih h)

/-- Where no name stands twice, what is held can be looked up. -/
theorem get?_eq_some_iff (nodup : (fields.map Prod.fst).Nodup) :
    fields.get? k = some v ↔ (k, v) ∈ fields := by
  refine ⟨mem_of_get?, fun held => ?_⟩
  induction fields with
  | nil => cases held
  | cons e rest ih =>
    obtain ⟨n, w⟩ := e
    obtain ⟨fresh, nodup⟩ := List.nodup_cons.1 nodup
    rw [get?_cons]
    obtain here | later := List.mem_cons.1 held
    · cases here
      simp
    · have different : k ≠ n := by
        rintro rfl
        exact fresh (List.mem_map.2 ⟨_, later, rfl⟩)
      simp [different, ih nodup later]

theorem get?_filter (p : String → Bool) (fields : Fields) (k : String) :
    get? (fields.filter fun e => p e.1) k = if p k then fields.get? k else none := by
  induction fields with
  | nil => simp
  | cons e rest ih =>
    obtain ⟨n, w⟩ := e
    by_cases kept : p n <;> by_cases same : k = n <;> simp_all [get?_cons]

/-- The last value given for a name counts. -/
theorem get?_ofList (entries : List (String × Json)) (k : String) :
    (ofList entries).get? k = get? entries.reverse k := by
  induction entries using List.reverseRecOn with
  | nil => rfl
  | append_singleton entries e ih =>
    obtain ⟨n, w⟩ := e
    rw [ofList, List.foldl_append] at *
    simp [get?_insert, get?_cons, ih]

theorem get?_ofList_eq_some_iff (nodup : (entries.map Prod.fst).Nodup) :
    (ofList entries).get? k = some v ↔ (k, v) ∈ entries := by
  have reversed : (entries.reverse.map Prod.fst).Nodup := by
    simpa [List.map_reverse] using nodup
  rw [get?_ofList, get?_eq_some_iff reversed, List.mem_reverse]

/-! ## Order -/

theorem mem_insert {e : String × Json} (h : e ∈ fields.insert name value) :
    e = (name, value) ∨ e ∈ fields := by
  induction fields with
  | nil => simpa [insert] using h
  | cons f rest ih =>
    obtain ⟨n, w⟩ := f
    simp only [insert] at h
    split at h
    · simpa using h
    · split at h
      · obtain rfl | h := List.mem_cons.1 h
        · exact .inl rfl
        · exact .inr (List.mem_cons_of_mem _ h)
      · obtain rfl | h := List.mem_cons.1 h
        · exact .inr List.mem_cons_self
        · exact (ih h).imp_right (List.mem_cons_of_mem _)

theorem Sorted.insert (sorted : fields.Sorted) (name : String) (value : Json) :
    (fields.insert name value).Sorted := by
  induction fields with
  | nil => exact List.pairwise_singleton _ _
  | cons f rest ih =>
    obtain ⟨n, w⟩ := f
    obtain ⟨before, rest_sorted⟩ := List.pairwise_cons.1 sorted
    simp only [Fields.insert]
    split
    · rename_i less
      refine List.pairwise_cons.2 ⟨List.forall_mem_cons.2 ⟨less, fun e he => ?_⟩, sorted⟩
      exact String.lt_trans less (before e he)
    · split
      · rename_i same
        subst same
        exact List.pairwise_cons.2 ⟨before, rest_sorted⟩
      · rename_i notLess different
        refine List.pairwise_cons.2 ⟨fun e he => ?_, ih rest_sorted⟩
        obtain rfl | he := mem_insert he
        · exact Std.lt_of_le_of_ne (String.not_lt.1 notLess) (Ne.symm different)
        · exact before e he

theorem sorted_ofList (entries : List (String × Json)) : (ofList entries).Sorted := by
  induction entries using List.reverseRecOn with
  | nil => exact .nil
  | append_singleton entries e ih =>
    rw [ofList, List.foldl_append] at *
    exact ih.insert e.1 e.2

namespace Sorted

theorem nodup (sorted : fields.Sorted) : (fields.map Prod.fst).Nodup :=
  List.pairwise_map.2 (List.Pairwise.imp (fun less => Std.ne_of_lt less) sorted)

theorem filter (sorted : fields.Sorted) (p : String × Json → Bool) :
    Sorted (fields.filter p) := List.Pairwise.filter p sorted

/-- Fields in order are equal when the same can be looked up in them. -/
theorem ext (sorted : fields.Sorted) (sorted' : other.Sorted)
    (same : ∀ k, fields.get? k = other.get? k) : fields = other := by
  have mem_iff : ∀ e, e ∈ fields ↔ e ∈ other := fun e => by
    rw [← get?_eq_some_iff sorted.nodup, ← get?_eq_some_iff sorted'.nodup, same]
  have perm : fields.Perm other := (List.perm_ext_iff_of_nodup
    (List.Nodup.of_map _ sorted.nodup) (List.Nodup.of_map _ sorted'.nodup)).2 mem_iff
  refine perm.eq_of_pairwise (fun a b _ _ less greater => ?_) sorted sorted'
  exact absurd (String.lt_trans less greater) (String.lt_irrefl _)

end Sorted

theorem mem_of_mem_ofList {e : String × Json} (h : e ∈ ofList entries) : e ∈ entries := by
  have found := (get?_eq_some_iff (sorted_ofList entries).nodup).2 h
  rw [get?_ofList] at found
  exact List.mem_reverse.1 (mem_of_get? found)

end UiRunner.Json.Fields
