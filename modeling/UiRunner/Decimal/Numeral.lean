import UiRunner.Decimal.Shortest

/-!
# Numerals

How numbers are written in decimal, and how written numbers are read. `positional` writes all
places of the shortest decimal, `scientific` turns to an exponent for very large and very small
numbers, and `fixed` rounds the exact value to a number of places.
-/
namespace UiRunner.Decimal

def natText (n : Nat) : String := .ofList (Nat.toDigits 10 n)

def intText (i : Int) : String := (if i < 0 then "-" else "") ++ natText i.natAbs

/-- A natural number in units of `10^-places`. -/
def pointed (units places : Nat) : String :=
  let ds := Nat.toDigits 10 units
  let ds := List.replicate (places + 1 - ds.length) '0' ++ ds
  let whole := String.ofList (ds.take (ds.length - places))
  if places = 0 then whole else whole ++ "." ++ .ofList (ds.drop (ds.length - places))

/-- Every place written out, without an exponent. -/
def Expansion.plain (x : Expansion) : String :=
  if 0 ≤ x.exponent then natText (x.digits * Nat.pow 10 x.exponent.toNat)
  else pointed x.digits (-x.exponent).toNat

namespace Binary64

def sign (x : Binary64) : String := if x.negative then "-" else ""

/-- The shortest decimal with all its places, and a whole number without a point. -/
def positional (x : Binary64) : String :=
  if x.isNaN then "NaN"
  else if !x.isFinite then x.sign ++ "inf"
  else x.sign ++ x.shortest.plain

/-- The first power of ten that is written with an exponent, and the last negative one. -/
def exponentFrom : Int := 16

def exponentBelow : Int := -5

/-- The shortest decimal with a point, or with an exponent from `10^16` on and below `10^-5`. -/
def scientific (x : Binary64) : String :=
  let d := x.shortest
  let ds := Nat.toDigits 10 d.digits
  let lead := d.exponent + ds.length - 1
  if d.digits = 0 then x.sign ++ "0.0"
  else if lead < exponentBelow || exponentFrom ≤ lead then
    let tail := ds.drop 1
    x.sign ++ .ofList (ds.take 1) ++ (if tail.isEmpty then "" else "." ++ .ofList tail) ++ "e" ++
      (if lead < 0 then "-" else "+") ++ natText lead.natAbs
  else if 0 ≤ d.exponent then x.sign ++ d.plain ++ ".0"
  else x.sign ++ d.plain

/-- The exact value rounded to a number of places, ties to even. -/
def fixed (places : Nat) (x : Binary64) : String :=
  let (n, d) := x.ratio
  x.sign ++ pointed (roundHalfEven (n * Nat.pow 10 places) d) places

end Binary64

def digitsValue (ds : List Char) : Nat := ds.foldl (fun n c => n * 10 + (c.toNat - 48)) 0

def isDigit (c : Char) : Bool := '0' ≤ c && c ≤ '9'

/-- An optional sign, and what follows it. -/
def splitSign : List Char → Bool × List Char
  | '-' :: cs => (true, cs)
  | '+' :: cs => (false, cs)
  | cs => (false, cs)

/-- A whole number: an optional sign and digits only. -/
def readInt? (cs : List Char) : Option Int :=
  let (negative, ds) := splitSign cs
  if ds.isEmpty || !ds.all isDigit then none
  else some (if negative then -(digitsValue ds : Nat) else (digitsValue ds : Nat))

/-- The exponent at the end of a numeral, zero when nothing is left. -/
def readExponent? : List Char → Option Int
  | [] => some 0
  | c :: cs => if c == 'e' || c == 'E' then readInt? cs else none

/-- A number as people write it: sign, digits with or without a point, exponent; or a word for
infinity or for no number. -/
def readBinary64? (cs : List Char) : Option Binary64 :=
  let (negative, body) := splitSign cs
  let word := String.ofList (body.map Char.toLower)
  if word == "inf" || word == "infinity" then some (Binary64.infinity negative)
  else if word == "nan" then some Binary64.nan
  else
    let whole := body.takeWhile isDigit
    let rest := body.dropWhile isDigit
    let (places, rest) := match rest with
      | '.' :: more => (more.takeWhile isDigit, more.dropWhile isDigit)
      | _ => ([], rest)
    if whole.isEmpty && places.isEmpty then none
    else (readExponent? rest).map fun e =>
      Binary64.ofDecimal negative (digitsValue (whole ++ places)) (e - places.length)

end UiRunner.Decimal
