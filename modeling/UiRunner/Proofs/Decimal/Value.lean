import Mathlib.Algebra.Order.Field.Rat
import Mathlib.Data.Nat.Digits.Defs
import Mathlib.Tactic.Linarith
import Mathlib.Tactic.NormNum
import UiRunner.Decimal.Numeral

/-!
# Exact values

The value of a finite binary64 as a rational number. `toInt?` is that value when it is whole, and
a whole number that does not fit 53 binary digits is rounded to one that still begins with the same
power of two, or to the next one, or to infinity.
-/
namespace UiRunner.Decimal

namespace Binary64

/-- The exact value of a finite number. -/
def value (x : Binary64) : ℚ :=
  (if x.negative then -1 else 1) * (x.mantissa * (2 : ℚ) ^ x.exponent)

/-! ## Whole numbers -/

theorem ratio_pos (x : Binary64) : 0 < x.ratio.2 := by
  unfold ratio
  split
  · exact Nat.one_pos
  · exact Nat.pow_pos Nat.two_pos

/-- `ratio` is the quotient of two whole numbers that the magnitude is. -/
theorem magnitude_mul_ratio (x : Binary64) :
    x.mantissa * (2 : ℚ) ^ x.exponent * x.ratio.2 = x.ratio.1 := by
  unfold ratio
  split
  · rename_i whole
    obtain ⟨n, power⟩ := Int.eq_ofNat_of_zero_le whole
    simp [power]
  · rename_i fractional
    obtain ⟨n, power⟩ := Int.eq_ofNat_of_zero_le (a := -x.exponent) (by omega)
    have total : x.exponent + (n : ℤ) = 0 := by omega
    have scale : (2 : ℚ) ^ x.exponent * (2 : ℚ) ^ n = 1 := by
      rw [← zpow_natCast, ← zpow_add₀ (by norm_num), total, zpow_zero]
    simp [power, mul_assoc, scale]

theorem value_eq_iff {x : Binary64} {i : ℤ} :
    x.value = i ↔ i * x.ratio.2 = (if x.negative then -1 else 1) * (x.ratio.1 : ℤ) := by
  have scale : (x.ratio.2 : ℚ) ≠ 0 := by exact_mod_cast x.ratio_pos.ne'
  rw [← mul_left_inj' scale, value, mul_assoc, magnitude_mul_ratio, eq_comm]
  split <;> norm_cast

theorem natAbs_mul_eq {n d : ℕ} {negative : Bool} {i : ℤ}
    (h : i * d = (if negative then -1 else 1) * (n : ℤ)) : i.natAbs * d = n := by
  have magnitude := congrArg Int.natAbs h
  rw [Int.natAbs_mul, Int.natAbs_natCast] at magnitude
  cases negative <;> simpa using magnitude

/-- A quotient with a sign is whole exactly if some number is the quotient. -/
theorem quotient_eq_some_iff {n d : ℕ} (positive : 0 < d) {negative : Bool} {i : ℤ} :
    (if n % d = 0 then some (if negative then -((n / d : ℕ) : ℤ) else (n / d : ℕ)) else none) =
      some i ↔ i * d = (if negative then -1 else 1) * (n : ℤ) := by
  by_cases whole : n % d = 0
  · obtain ⟨q, rfl⟩ := Nat.dvd_of_mod_eq_zero whole
    have cancel : ∀ a : ℤ, a = i ↔ i * d = a * d := by
      intro a
      rw [mul_left_inj' (by exact_mod_cast positive.ne'), eq_comm]
    rw [Nat.mul_div_cancel_left q positive]
    cases negative <;> simp [cancel, mul_comm]
  · rw [if_neg whole]
    refine iff_of_false (by simp) fun same => whole ?_
    rw [← natAbs_mul_eq same]
    exact Nat.mul_mod_left ..

/-- A number is whole exactly if its value is. -/
theorem toInt?_eq_some_iff {x : Binary64} {i : ℤ} :
    x.toInt? = some i ↔ x.isFinite = true ∧ x.value = i := by
  rw [value_eq_iff, ← quotient_eq_some_iff x.ratio_pos]
  unfold toInt?
  cases x.isFinite with
  | false => exact iff_of_false (by simp) (by simp)
  | true => exact (and_iff_right rfl).symm

/-! ## Rounded whole numbers -/

theorem le_roundHalfEven {num den q : ℕ} (positive : 0 < den) (le : q * den ≤ num) :
    q ≤ roundHalfEven num den := by
  have near := (roundHalfEven_near num den positive).1
  by_contra less
  have step := Nat.mul_le_mul_right den (show 2 * roundHalfEven num den + 2 ≤ 2 * q by omega)
  rw [Nat.add_mul] at near step
  rw [Nat.mul_assoc 2 q den] at step
  omega

theorem roundHalfEven_le {num den q : ℕ} (positive : 0 < den) (le : num ≤ q * den) :
    roundHalfEven num den ≤ q := by
  have near := (roundHalfEven_near num den positive).2
  by_contra more
  have step := Nat.mul_le_mul_right den (show 2 * q + 2 ≤ 2 * roundHalfEven num den by omega)
  rw [Nat.add_mul, Nat.mul_assoc 2 q den] at step
  omega

theorem toNat_assemble (negative : Bool) (magnitude : ℕ) (small : magnitude < 2 ^ 63) :
    (assemble negative magnitude).bits.toNat = magnitude + if negative then 2 ^ 63 else 0 := by
  unfold assemble
  rw [UInt64.toNat_ofNat']
  refine Nat.mod_eq_of_lt ?_
  cases negative <;> simp <;> omega

/-- The fields of a number that is put together. -/
theorem fields_assemble (negative : Bool) {b f : ℕ} (exponent : b < 2047) (fraction : f < 2 ^ 52) :
    (assemble negative (b * 2 ^ 52 + f)).biased = b ∧
      (assemble negative (b * 2 ^ 52 + f)).fraction = f ∧
      (assemble negative (b * 2 ^ 52 + f)).negative = negative := by
  have bits := toNat_assemble negative (b * 2 ^ 52 + f) (by omega)
  simp only [biased, Binary64.fraction, Binary64.negative, ge_iff_le, UInt64.le_iff_toNat_le, bits]
  cases negative <;> simp <;> omega

/-- A number that is put together from 53 digits in units of `2 ^ e` is as large as they say. -/
theorem natAbs_of_assemble {negative : Bool} {m e : ℕ} {j : ℤ} (digits : 2 ^ 52 ≤ m)
    (bounded : m < 2 ^ 53) (exponent : e ≤ 971)
    (whole : (assemble negative ((e + 1075) * 2 ^ 52 + (m - 2 ^ 52))).toInt? = some j) :
    j.natAbs = m * 2 ^ e := by
  obtain ⟨b, f, -⟩ := fields_assemble negative (b := e + 1075) (f := m - 2 ^ 52) (by omega)
    (by omega)
  generalize assemble negative ((e + 1075) * 2 ^ 52 + (m - 2 ^ 52)) = x at *
  have mantissa : x.mantissa = m := by
    simp only [Binary64.mantissa, b, f]
    simp
    omega
  have exponent : x.exponent = e := by
    simp only [Binary64.exponent, b]
    simp
  have ratio : x.ratio = (m * 2 ^ e, 1) := by
    simp [Binary64.ratio, mantissa, exponent]
  rw [toInt?_eq_some_iff, value_eq_iff, ratio] at whole
  simpa using natAbs_mul_eq whole.2

/-- How many units of a power of two a whole number of more than 53 digits has. -/
theorem unitsOf_bounds {n k : ℕ} (length : n.log2 = k + 53) : 2 ^ 53 ≤ unitsOf n 1 k ∧
    2 ^ 52 ≤ unitsOf n 1 (k + 1 : ℕ) ∧ unitsOf n 1 (k + 1 : ℕ) ≤ 2 ^ 53 := by
  have positive : n ≠ 0 := by
    rintro rfl
    simp at length
  have low : 2 ^ (k + 53) ≤ n := length ▸ Nat.log2_self_le positive
  have high : n < 2 ^ (k + 54) := (Nat.log2_lt positive).1 (by omega)
  have units : ∀ e : ℕ, unitsOf n 1 e = roundHalfEven n (2 ^ e) := by
    intro e
    simp [unitsOf]
  have product : ∀ {a b c : ℕ}, a + b = c → 2 ^ a * 2 ^ b = 2 ^ c := by
    rintro a b _ rfl
    exact (pow_add 2 a b).symm
  rw [units, units]
  exact ⟨le_roundHalfEven (by positivity) ((product (by omega)).trans_le low),
    le_roundHalfEven (by positivity) ((product (by omega)).trans_le low),
    roundHalfEven_le (by positivity) (high.le.trans_eq (product (by omega)).symm)⟩

/-- A whole number of more than 53 digits is rounded to 53 digits in units of a power of two. -/
theorem ofRatio_one_eq (negative : Bool) {n : ℕ} (large : 53 ≤ n.log2) :
    ∃ m e : ℕ, 2 ^ 52 ≤ m ∧ m < 2 ^ 53 ∧ n.log2 ≤ e + 52 ∧ ofRatio negative n 1 =
      if 971 < e then infinity negative
      else assemble negative ((e + 1075) * 2 ^ 52 + (m - 2 ^ 52)) := by
  obtain ⟨k, length⟩ : ∃ k, n.log2 = k + 53 := ⟨n.log2 - 53, by omega⟩
  obtain ⟨guess, least, most⟩ := unitsOf_bounds length
  have positive : n ≠ 0 := by
    rintro rfl
    simp at large
  have one : Nat.log2 1 = 0 := by decide
  have unit : ((k + 53 : ℕ) : ℤ) - (0 : ℕ) - 53 = k := by omega
  have next : max ((k : ℤ) + 1) (-1074) = (k + 1 : ℕ) := by omega
  have packed : ∀ m e : ℕ, 2 ^ 52 ≤ m → (if m < Nat.pow 2 52 then assemble negative m
      else if (e : ℤ) > 971 then infinity negative
      else assemble negative (((e : ℤ) + 1075).toNat * Nat.pow 2 52 + (m - Nat.pow 2 52))) =
        if 971 < e then infinity negative
        else assemble negative ((e + 1075) * 2 ^ 52 + (m - 2 ^ 52)) := by
    intro m e normal
    have biased : ((e : ℤ) + 1075).toNat = e + 1075 := by omega
    rw [if_neg (show ¬ m < Nat.pow 2 52 from not_lt.2 normal), biased]
    simp only [gt_iff_lt, Nat.ofNat_lt_cast, Nat.pow_eq]
  unfold ofRatio
  rw [if_neg positive]
  simp only [length, one, unit]
  -- With the first guess there is a digit too many, so the unit is twice as large.
  rw [if_neg (show ¬ unitsOf n 1 k < Nat.pow 2 53 from not_lt.2 guess), next]
  generalize unitsOf n 1 (k + 1 : ℕ) = m at least most ⊢
  -- Rounding up can lead to the next power of two, which has one digit more.
  by_cases carry : m = Nat.pow 2 53
  · have exponent : ((k + 1 : ℕ) : ℤ) + 1 = (k + 2 : ℕ) := by omega
    rw [if_pos carry, exponent]
    exact ⟨2 ^ 52, k + 2, le_rfl, by norm_num, by omega, packed _ _ le_rfl⟩
  · rw [if_neg carry]
    have less : m < 2 ^ 53 := lt_of_le_of_ne most carry
    exact ⟨m, k + 1, least, less, by omega, packed m (k + 1) least⟩

theorem toInt?_infinity (negative : Bool) : (infinity negative).toInt? = none := by
  cases negative <;> decide +kernel

/-- A whole number of more than 53 digits begins with the same power of two after rounding, or with
a larger one. -/
theorem two_pow_log2_le_of_toInt?_ofInt {i j : ℤ} (large : 53 ≤ i.natAbs.log2)
    (whole : (ofInt i).toInt? = some j) : 2 ^ i.natAbs.log2 ≤ j.natAbs := by
  obtain ⟨m, e, digits, bounded, exponent, rounded⟩ := ofRatio_one_eq (decide (i < 0)) large
  rw [ofInt, rounded] at whole
  split at whole
  · cases (toInt?_infinity _).symm.trans whole
  · rw [natAbs_of_assemble digits bounded (by omega) whole]
    calc 2 ^ i.natAbs.log2 ≤ 2 ^ (52 + e) := Nat.pow_le_pow_right Nat.two_pos (by omega)
      _ = 2 ^ 52 * 2 ^ e := pow_add ..
      _ ≤ m * 2 ^ e := Nat.mul_le_mul_right _ digits

end Binary64

/-! ## Numerals -/

/-- Decimal digits, at least one, that denote a number. -/
structure Digits (ds : List Char) (n : ℕ) : Prop where
  nonempty : ds ≠ []
  decimal : ∀ c ∈ ds, isDigit c = true
  value : n = Nat.ofDigits 10 (ds.map fun c => c.toNat - 48).reverse

/-- Digits with an optional sign, which denote a whole number. -/
inductive Numeral : List Char → ℤ → Prop where
  | bare {ds : List Char} {n : ℕ} : Digits ds n → Numeral ds n
  | plus {ds : List Char} {n : ℕ} : Digits ds n → Numeral ('+' :: ds) n
  | minus {ds : List Char} {n : ℕ} : Digits ds n → Numeral ('-' :: ds) (-n)

theorem digitsValue_eq_ofDigits (ds : List Char) :
    digitsValue ds = Nat.ofDigits 10 (ds.map fun c => c.toNat - 48).reverse := by
  rw [digitsValue, Nat.ofDigits_eq_foldr, List.foldr_reverse, List.foldl_map]
  congr 1
  funext n c
  simp
  omega

theorem digits_iff {ds : List Char} {n : ℕ} :
    Digits ds n ↔ (ds.isEmpty || !ds.all isDigit) = false ∧ n = digitsValue ds := by
  rw [digitsValue_eq_ofDigits]
  constructor
  · rintro ⟨nonempty, decimal, value⟩
    exact ⟨by simpa [nonempty] using decimal, value⟩
  · rintro ⟨accepted, value⟩
    simp only [Bool.or_eq_false_iff, List.isEmpty_eq_false_iff, Bool.not_eq_false',
      List.all_eq_true] at accepted
    exact ⟨accepted.1, accepted.2, value⟩

theorem splitSign_eq (cs : List Char) :
    (∃ ds, cs = '-' :: ds ∧ splitSign cs = (true, ds)) ∨
      (∃ ds, cs = '+' :: ds ∧ splitSign cs = (false, ds)) ∨ splitSign cs = (false, cs) := by
  unfold splitSign
  split <;> simp

/-- A numeral is the digits behind its sign. -/
theorem numeral_iff {cs : List Char} {i : ℤ} : Numeral cs i ↔
    ∃ n, Digits (splitSign cs).2 n ∧ i = if (splitSign cs).1 then -(n : ℤ) else n := by
  constructor
  · rintro (digits | digits | digits)
    · -- No sign is a digit.
      obtain ⟨ds, rfl, -⟩ | ⟨ds, rfl, -⟩ | none := splitSign_eq cs
      · exact absurd (digits.decimal '-' (by simp)) (by decide)
      · exact absurd (digits.decimal '+' (by simp)) (by decide)
      · rw [none]
        exact ⟨_, digits, rfl⟩
    · exact ⟨_, digits, rfl⟩
    · exact ⟨_, digits, rfl⟩
  · rintro ⟨n, digits, rfl⟩
    obtain ⟨ds, rfl, -⟩ | ⟨ds, rfl, -⟩ | none := splitSign_eq cs
    · exact .minus digits
    · exact .plus digits
    · rw [none] at digits ⊢
      exact .bare digits

theorem readInt?_eq_some_iff {cs : List Char} {i : ℤ} : readInt? cs = some i ↔ Numeral cs i := by
  simp only [numeral_iff, digits_iff, readInt?]
  generalize splitSign cs = r
  obtain ⟨negative, ds⟩ := r
  cases ds.isEmpty || !ds.all isDigit <;> simp [eq_comm]

end UiRunner.Decimal
