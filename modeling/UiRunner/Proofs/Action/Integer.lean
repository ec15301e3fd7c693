import UiRunner.Action.Coercion
import UiRunner.Proofs.Decimal.Value

/-!
# Whole numbers as parameters

A parameter that is declared as an integer takes a number with exactly this value, or a text that
writes it. Nothing is rounded on the way, whichever of its three forms a number has. The one number
within 64 bits that is refused is the lowest one, and only when it is written with a point.
-/
namespace UiRunner.Action

open Decimal

/-- The value is a number of exactly this value, or a text that writes it between blanks. -/
def IsWhole : Json → ℤ → Prop
  | .num (.int j), i => j = i
  | .num (.float x), i => x.isFinite = true ∧ x.value = i
  | .str s, i => ∃ before cs after, s.toList = before ++ cs ++ after ∧
      (∀ c ∈ before ++ after, Text.isBlank c = true) ∧ Numeral cs i
  | _, _ => False

/-! ## Texts -/

theorem isBlank_of_isDigit {c : Char} (digit : isDigit c = true) : Text.isBlank c = false := by
  have range : 48 ≤ c.toNat ∧ c.toNat ≤ 57 := by
    simpa [isDigit, Char.le_def, UInt32.le_iff_toNat_le] using digit
  simp only [Text.isBlank, Bool.or_eq_false_iff, Bool.and_eq_false_iff, decide_eq_false_iff_not,
    beq_eq_false_iff_ne]
  omega

/-- Nothing in a numeral is blank. -/
theorem isBlank_of_numeral {cs : List Char} {i : ℤ} (h : Numeral cs i) :
    ∀ c ∈ cs, Text.isBlank c = false := by
  obtain digits | digits | digits := h
  · exact fun c mem => isBlank_of_isDigit (digits.decimal c mem)
  · exact List.forall_mem_cons.2
      ⟨by decide, fun c mem => isBlank_of_isDigit (digits.decimal c mem)⟩
  · exact List.forall_mem_cons.2
      ⟨by decide, fun c mem => isBlank_of_isDigit (digits.decimal c mem)⟩

theorem numeral_trimChars_iff {cs : List Char} {i : ℤ} : Numeral (Text.trimChars cs) i ↔
    ∃ before body after, cs = before ++ body ++ after ∧
      (∀ c ∈ before ++ after, Text.isBlank c = true) ∧ Numeral body i := by
  constructor
  · intro numeral
    obtain ⟨before, after, whole, blank⟩ := Text.exists_trimChars cs
    exact ⟨before, _, after, whole, blank, numeral⟩
  · rintro ⟨before, body, after, rfl, blank, numeral⟩
    have visible := isBlank_of_numeral numeral
    rwa [Text.trimChars_append before body after blank
      (fun c at_ => visible c (List.mem_of_head? at_))
      fun c at_ => visible c (List.mem_of_getLast? at_)]

theorem inInt64_iff {i : ℤ} : inInt64 i = true ↔ -2 ^ 63 ≤ i ∧ i ≤ 2 ^ 63 - 1 := by
  have power : Int.pow 2 63 = 2 ^ 63 := rfl
  simp only [inInt64, power, Bool.and_eq_true, decide_eq_true_eq]
  omega

theorem readInt64?_eq_some_iff {s : String} {i : ℤ} :
    readInt64? s = some i ↔ IsWhole (.str s) i ∧ -2 ^ 63 ≤ i ∧ i ≤ 2 ^ 63 - 1 := by
  rw [IsWhole, ← numeral_trimChars_iff, ← readInt?_eq_some_iff, ← inInt64_iff, readInt64?]
  cases readInt? (Text.trimChars s.toList) with
  | none => simp
  | some j =>
    by_cases fits : inInt64 j = true
    · simp only [fits, if_pos, Option.some.injEq]
      exact ⟨fun same => ⟨same, same ▸ fits⟩, And.left⟩
    · simp only [fits, Option.some.injEq]
      refine iff_of_false (by simp) ?_
      rintro ⟨rfl, fits'⟩
      exact fits fits'

/-! ## Numbers -/

/-- A whole number beyond 64 bits is not taken: it is still beyond them when it is rounded. -/
theorem wholeNumber?_eq_none {j : ℤ} (beyond : 2 ^ 63 ≤ j.natAbs)
    (unwritten : (Json.Number.int j).asInt64? = none) : wholeNumber? (.int j) = none := by
  have length : 63 ≤ j.natAbs.log2 := (Nat.le_log2 (by omega)).2 beyond
  rw [wholeNumber?, unwritten, Json.Number.toBinary64]
  cases whole : (Binary64.ofInt j).toInt? with
  | none => rfl
  | some i =>
    have large := Binary64.two_pow_log2_le_of_toInt?_ofInt (by omega) whole
    have least : Nat.pow 2 63 ≤ i.natAbs := (Nat.pow_le_pow_right Nat.two_pos length).trans large
    exact if_neg (not_lt.2 least)

theorem wholeNumber?_int {i j : ℤ} :
    wholeNumber? (.int j) = some i ↔ j = i ∧ -2 ^ 63 ≤ i ∧ i ≤ 2 ^ 63 - 1 := by
  have power : Int.pow 2 63 = 2 ^ 63 := rfl
  by_cases within : -Int.pow 2 63 ≤ j ∧ j < Int.pow 2 63
  · simp only [wholeNumber?, Json.Number.asInt64?, if_pos within, Option.some.injEq]
    omega
  · rw [wholeNumber?_eq_none (show 2 ^ 63 ≤ j.natAbs by omega) (if_neg within)]
    refine iff_of_false (by simp) ?_
    omega

theorem wholeNumber?_float {x : Binary64} {i : ℤ} :
    wholeNumber? (.float x) = some i ↔
      (x.isFinite = true ∧ x.value = i) ∧ -2 ^ 63 < i ∧ i ≤ 2 ^ 63 - 1 := by
  have power : Nat.pow 2 63 = 2 ^ 63 := rfl
  rw [← Binary64.toInt?_eq_some_iff]
  simp only [wholeNumber?, Json.Number.asInt64?, Json.Number.toBinary64, power]
  cases x.toInt? with
  | none => simp
  | some j =>
    simp only [Option.some.injEq]
    split <;> simp <;> omega

/-- **A parameter is an integer exactly if it is a whole number of 64 bits**, apart from the lowest
one in the form of a binary64, and then it is that number. -/
theorem integer_exact (v : Json) (y : Value) : convert .integer v = some y ↔
    ∃ i, y = .int i ∧ IsWhole v i ∧ -2 ^ 63 ≤ i ∧ i ≤ 2 ^ 63 - 1 ∧
      (i = -2 ^ 63 → ∀ x, v ≠ .num (.float x)) := by
  have mapped : ∀ r : Option ℤ, r.map Value.int = some y ↔ ∃ i, y = .int i ∧ r = some i := by
    intro r
    rw [Option.map_eq_some_iff]
    exact exists_congr fun i => by rw [and_comm, eq_comm]
  cases v with
  | num n =>
    cases n with
    | int j =>
      simp only [convert, mapped, wholeNumber?_int, IsWhole]
      simp
    | float x =>
      simp only [convert, mapped, wholeNumber?_float, IsWhole]
      refine exists_congr fun i => and_congr_right fun _ => and_congr_right fun _ => ?_
      simp
      omega
  | str s =>
    simp only [convert, mapped, readInt64?_eq_some_iff]
    simp
  | null | bool | arr | obj => simp [convert, IsWhole]

/-- The lowest number of 64 bits is taken as a whole number and as a text, but not as a binary64. -/
theorem lowest_float_refused : ∃ x : Binary64, IsWhole (.num (.float x)) (-2 ^ 63) ∧
    convert .integer (.num (.float x)) = none ∧
    (convert .integer (.num (.int (-2 ^ 63)))).isSome ∧
    (convert .integer (.str "-9223372036854775808")).isSome := by
  refine ⟨⟨0xc3e0000000000000⟩, Binary64.toInt?_eq_some_iff.1 (by decide +kernel),
    by decide +kernel, by decide +kernel, by decide +kernel⟩

end UiRunner.Action
