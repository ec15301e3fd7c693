/-!
# Binary64 numbers

Floating point numbers of 64 bits, given by their bits. A finite number is
`(-1)^negative · mantissa · 2^exponent`; `ofRatio` rounds an exact quotient to the nearest number,
a tie to the one whose mantissa is even. All arithmetic is exact arithmetic on `Nat` followed by
one such rounding.
-/
namespace UiRunner.Decimal

structure Binary64 where
  bits : UInt64
deriving DecidableEq, Repr, Inhabited

/-- `num / den` rounded to a whole number, ties to even. -/
def roundHalfEven (num den : Nat) : Nat :=
  let q := num / den
  let r := num % den
  if 2 * r < den then q
  else if 2 * r > den then q + 1
  else if q % 2 = 0 then q else q + 1

@[simp] theorem roundHalfEven_one (n : Nat) : roundHalfEven n 1 = n := by
  simp [roundHalfEven, Nat.mod_one]

/-- A rounded quotient is within half a unit of the exact one. -/
theorem roundHalfEven_near (num den : Nat) (h : 0 < den) :
    2 * num ≤ (2 * roundHalfEven num den + 1) * den ∧
      2 * roundHalfEven num den * den ≤ 2 * num + den := by
  have hd := Nat.div_add_mod num den
  have hl := Nat.mod_lt num h
  have key : ∀ q, q = num / den → ∀ r, r = num % den → den * q + r = num := by
    rintro q rfl r rfl; exact hd
  simp only [roundHalfEven]
  generalize hq : num / den = q at *
  generalize hr : num % den = r at *
  have e : q * den = den * q := Nat.mul_comm _ _
  have e1 : (2 * q + 1) * den = 2 * (den * q) + den := by
    rw [Nat.add_mul, Nat.one_mul, Nat.mul_assoc, e]
  have e2 : (2 * (q + 1) + 1) * den = 2 * (den * q) + 3 * den := by
    rw [show 2 * (q + 1) + 1 = 2 * q + 3 by omega, Nat.add_mul, Nat.mul_assoc, e]
  have e3 : 2 * q * den = 2 * (den * q) := by rw [Nat.mul_assoc, e]
  have e4 : 2 * (q + 1) * den = 2 * (den * q) + 2 * den := by
    rw [show 2 * (q + 1) = 2 * q + 2 by omega, Nat.add_mul, Nat.mul_assoc, e]
  split
  · constructor <;> omega
  · split
    · constructor <;> omega
    · split <;> constructor <;> omega

namespace Binary64

def negative (x : Binary64) : Bool := x.bits ≥ 0x8000000000000000

def biased (x : Binary64) : Nat := x.bits.toNat / Nat.pow 2 52 % 2048

def fraction (x : Binary64) : Nat := x.bits.toNat % Nat.pow 2 52

def isFinite (x : Binary64) : Bool := x.biased != 2047

def isNaN (x : Binary64) : Bool := x.biased == 2047 && x.fraction != 0

def mantissa (x : Binary64) : Nat :=
  if x.biased = 0 then x.fraction else x.fraction + Nat.pow 2 52

/-- The power of two that the mantissa counts. -/
def exponent (x : Binary64) : Int :=
  if x.biased = 0 then -1074 else (x.biased : Int) - 1075

def isZero (x : Binary64) : Bool := x.mantissa == 0 && x.isFinite

/-- The number is below zero; the negative zero is not. -/
def isBelowZero (x : Binary64) : Bool := x.negative && !x.isZero && !x.isNaN

/-- Numerator and denominator of the magnitude. -/
def ratio (x : Binary64) : Nat × Nat :=
  if 0 ≤ x.exponent then (x.mantissa * Nat.pow 2 x.exponent.toNat, 1)
  else (x.mantissa, Nat.pow 2 (-x.exponent).toNat)

def assemble (negative : Bool) (magnitude : Nat) : Binary64 :=
  ⟨UInt64.ofNat (magnitude + if negative then Nat.pow 2 63 else 0)⟩

def zero (negative : Bool) : Binary64 := assemble negative 0

def infinity (negative : Bool) : Binary64 := assemble negative (2047 * Nat.pow 2 52)

def nan : Binary64 := ⟨0x7ff8000000000000⟩

/-- `num / den` in units of `2^e`, rounded. -/
def unitsOf (num den : Nat) (e : Int) : Nat :=
  if 0 ≤ e then roundHalfEven num (den * Nat.pow 2 e.toNat)
  else roundHalfEven (num * Nat.pow 2 (-e).toNat) den

/-- The nearest number to `num / den`; beyond the largest finite one it is infinite. -/
def ofRatio (negative : Bool) (num den : Nat) : Binary64 :=
  if num = 0 then zero negative
  else
    -- with this unit the quotient has 53 or 54 binary digits before the point
    let guess : Int := (num.log2 : Int) - den.log2 - 53
    let e₀ := if unitsOf num den guess < Nat.pow 2 53 then guess else guess + 1
    let e := max e₀ (-1074)
    let m := unitsOf num den e
    let (m, e) := if m = Nat.pow 2 53 then (Nat.pow 2 52, e + 1) else (m, e)
    if m < Nat.pow 2 52 then assemble negative m
    else if e > 971 then infinity negative
    else assemble negative ((e + 1075).toNat * Nat.pow 2 52 + (m - Nat.pow 2 52))

def ofNat (n : Nat) : Binary64 := ofRatio false n 1

def ofInt (i : Int) : Binary64 := ofRatio (i < 0) i.natAbs 1

/-- `digits · 10^exponent`, rounded once. The bounds keep the powers small: outside them the
answer is infinite or zero. -/
def ofDecimal (negative : Bool) (digits : Nat) (exponent : Int) : Binary64 :=
  if digits = 0 then zero negative
  else
    let top := ((Nat.toDigits 10 digits).length : Int) + exponent
    if top > 400 then infinity negative
    else if top < -400 then zero negative
    else if 0 ≤ exponent then ofRatio negative (digits * Nat.pow 10 exponent.toNat) 1
    else ofRatio negative digits (Nat.pow 10 (-exponent).toNat)

/-- The product, for finite factors. -/
def mul (x y : Binary64) : Binary64 :=
  let (a, b) := x.ratio
  let (c, d) := y.ratio
  ofRatio (x.negative != y.negative) (a * c) (b * d)

/-- The quotient, for finite numbers and a divisor other than zero. -/
def div (x y : Binary64) : Binary64 :=
  let (a, b) := x.ratio
  let (c, d) := y.ratio
  ofRatio (x.negative != y.negative) (a * d) (b * c)

/-- The sum of two finite numbers that are not negative. -/
def addMagnitudes (x y : Binary64) : Binary64 :=
  let (a, b) := x.ratio
  let (c, d) := y.ratio
  ofRatio false (a * d + c * b) (b * d)

/-- The number itself when it is whole. -/
def toInt? (x : Binary64) : Option Int :=
  if !x.isFinite then none
  else
    let (n, d) := x.ratio
    if n % d = 0 then some (if x.negative then -(n / d : Nat) else (n / d : Nat)) else none

def hexDigits : Nat → Nat → List Char
  | 0, _ => []
  | k + 1, n => hexDigits k (n / 16) ++ [(Nat.digitChar (n % 16))]

/-- The bits as `0x` and sixteen hexadecimal digits. -/
def bitsText (x : Binary64) : String := "0x" ++ .ofList (hexDigits 16 x.bits.toNat)

example : (ofDecimal false 1 (-1)).bitsText = "0x3fb999999999999a" := by decide +kernel
example : (ofRatio false 1 3).bitsText = "0x3fd5555555555555" := by decide +kernel
example : (ofDecimal false 5 (-324)).bitsText = "0x0000000000000001" := by decide +kernel
example : (ofDecimal false 17976931348623157 292).bitsText = "0x7fefffffffffffff" := by
  decide +kernel

end Binary64

end UiRunner.Decimal
