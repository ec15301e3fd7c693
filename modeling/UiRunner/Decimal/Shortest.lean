import UiRunner.Decimal.Binary64

/-!
# The fewest digits that read back

Every finite number is nearest to an interval of exact values. `shortest` gives the decimal of the
fewest digits inside that interval, and of those the one nearest to the number.
-/
namespace UiRunner.Decimal

/-- The decimal `digits · 10^exponent`. -/
structure Expansion where
  digits : Nat
  exponent : Int
deriving DecidableEq, Repr

namespace Expansion

/-- Compares `digits · 10^exponent` with `n / d`. -/
def cmp (x : Expansion) (n d : Nat) : Ordering :=
  if 0 ≤ x.exponent then compare (x.digits * Nat.pow 10 x.exponent.toNat * d) n
  else compare (x.digits * d) (n * Nat.pow 10 (-x.exponent).toNat)

/-- Removes zeros at the end of the digits. -/
def stripZeros : Nat → Expansion → Expansion
  | 0, x => x
  | fuel + 1, x =>
    if x.digits ≠ 0 ∧ x.digits % 10 = 0 then stripZeros fuel ⟨x.digits / 10, x.exponent + 1⟩
    else x

end Expansion

/-- The exact values that round to a number: a quarter unit of its last place is `1 / scale`, and
the bounds belong to the interval when the mantissa is even. -/
structure Interval where
  low : Nat
  value : Nat
  high : Nat
  scale : Nat
  closed : Bool

def Binary64.interval (x : Binary64) : Interval :=
  let m := x.mantissa
  let (up, scale) :=
    if 0 ≤ x.exponent then (Nat.pow 2 x.exponent.toNat, 4)
    else (1, 4 * Nat.pow 2 (-x.exponent).toNat)
  let below := if m = Nat.pow 2 52 ∧ x.biased > 1 then 1 else 2
  ⟨(4 * m - below) * up, 4 * m * up, (4 * m + 2) * up, scale, m % 2 = 0⟩

def Interval.holds (i : Interval) (x : Expansion) : Bool :=
  let lo := x.cmp i.low i.scale
  let hi := x.cmp i.high i.scale
  (lo == .gt || (i.closed && lo == .eq)) && (hi == .lt || (i.closed && hi == .eq))

/-- `value / scale` on the grid of `10^k`, rounded down. -/
def Interval.floorAt (i : Interval) (k : Int) : Nat :=
  if 0 ≤ k then i.value / (i.scale * Nat.pow 10 k.toNat)
  else i.value * Nat.pow 10 (-k).toNat / i.scale

/-- Whether the point above is at most as far from the value as the one below. -/
def Interval.upperIsNearer (i : Interval) (k : Int) (d : Nat) : Bool :=
  -- 2 · value against (2 d + 1) · 10^k
  match (Expansion.mk (2 * d + 1) k).cmp (2 * i.value) i.scale with
  | .lt => true
  | .eq => d % 2 == 1
  | .gt => false

/-- The better of the two neighbours on the grid of `10^k`, if one lies in the interval. -/
def Interval.pick (i : Interval) (k : Int) : Option Expansion :=
  let d := i.floorAt k
  let below : Expansion := ⟨d, k⟩
  let above : Expansion := ⟨d + 1, k⟩
  match i.holds below && d != 0, i.holds above with
  | true, true => if i.upperIsNearer k d then some above else some below
  | true, false => some below
  | false, true => some above
  | false, false => none

/-- The power of ten of the first digit. -/
def Interval.leading (i : Interval) : Int :=
  let whole := i.value / i.scale
  if whole > 0 then ((Nat.toDigits 10 whole).length : Int) - 1
  else
    -- 1 / fraction is at least 1, so its digits count the zeros after the point
    let inverse := i.scale / i.value
    let n := (Nat.toDigits 10 inverse).length
    if i.value * Nat.pow 10 n ≥ 10 * i.scale then -(n : Int) + 1 else -(n : Int)

def Interval.search (i : Interval) (lead : Int) : Nat → Nat → Expansion
  | 0, n => ⟨i.floorAt (lead - n), lead - n⟩
  | fuel + 1, n => (i.pick (lead - n)).getD (i.search lead fuel (n + 1))

/-- The fewest digits that read back as the magnitude of a finite number. -/
def Binary64.shortest (x : Binary64) : Expansion :=
  if x.mantissa = 0 then ⟨0, 0⟩
  else
    let i := x.interval
    (i.search i.leading 18 0).stripZeros 400

example : (Binary64.ofDecimal false 1 (-1)).shortest = ⟨1, -1⟩ := by decide +kernel
example : (Binary64.ofDecimal false 5 (-324)).shortest = ⟨5, -324⟩ := by decide +kernel
example : (Binary64.ofRatio false 1 3).shortest = ⟨3333333333333333, -16⟩ := by decide +kernel

end UiRunner.Decimal
