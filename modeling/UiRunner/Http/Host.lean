import UiRunner.Decimal.Numeral
import UiRunner.Text.Utf8

/-!
# Hosts

The host of a web address: a name, an address of four numbers, or an address of eight numbers in
square brackets. Names are in small letters, and may not hold characters that have a meaning
elsewhere in an address.
-/
namespace UiRunner.Http

open Decimal

namespace Host

def hexValue? (c : Char) : Option Nat := Bytes.hexValue? c.toLower

/-- Decodes a percent sign with two hexadecimal digits to a byte. -/
def percentDecode : List Char → Bytes
  | '%' :: a :: b :: rest =>
    match hexValue? a, hexValue? b with
    | some x, some y => UInt8.ofNat (x * 16 + y) :: percentDecode rest
    | _, _ => 0x25 :: percentDecode (a :: b :: rest)
  | c :: rest => Bytes.ofText c.toString ++ percentDecode rest
  | [] => []

/-- Characters that no host may hold. -/
def isForbidden (c : Char) : Bool :=
  c ∈ ['\x00', '\t', '\n', '\r', ' ', '#', '/', ':', '<', '>', '?', '@', '[', '\\', ']', '^', '|']

/-- Characters that no name may hold. -/
def isForbiddenInName (c : Char) : Bool :=
  isForbidden c || c.toNat < 0x20 || c == '%' || c == '\x7f'

def digitsValue? (base : Nat) (cs : List Char) : Option Nat :=
  cs.foldlM (fun n c => (hexValue? c).bind fun d =>
    if d < base then some (n * base + d) else none) 0

/-- A number in decimal, octal or hexadecimal digits. -/
def number? : List Char → Option Nat
  | [] => none
  | '0' :: 'x' :: cs => digitsValue? 16 cs
  | '0' :: c :: cs => digitsValue? 8 (c :: cs)
  | cs => digitsValue? 10 cs

/-- The parts between dots; a dot at the end does not count. -/
def labels (cs : List Char) : List (List Char) :=
  let parts := cs.splitOn '.'
  if parts.length > 1 && parts.getLast? == some [] then parts.dropLast else parts

/-- Whether a name must be an address of numbers. -/
def endsInNumber (cs : List Char) : Bool :=
  match (labels cs).getLast? with
  | some last => (!last.isEmpty && last.all isDigit) || (number? last).isSome
  | none => false

/-- The last number fills the places that are left. -/
def fourNumbers? (cs : List Char) : Option (List Nat) := do
  let parts ← (labels cs).mapM number?
  let last ← parts.getLast?
  let first := parts.dropLast
  if parts.length > 4 || first.any (· > 255) then none
  else
    let left := 4 - first.length
    if last < Nat.pow 256 left then
      some (first ++ (List.range left).map fun i => last / Nat.pow 256 (left - 1 - i) % 256)
    else none

/-- One to four hexadecimal digits. -/
def piece? (cs : List Char) : Option Nat :=
  if cs.isEmpty || cs.length > 4 then none else digitsValue? 16 cs

/-- Four decimal numbers as two pieces. -/
def dotted? (cs : List Char) : Option (List Nat) := do
  let parts ← (cs.splitOn '.').mapM fun p =>
    if p.isEmpty || p.length > 3 || (p.length > 1 && p.head? == some '0') then none
    else digitsValue? 10 p
  match parts with
  | [a, b, c, d] => if [a, b, c, d].all (· ≤ 255) then some [a * 256 + b, c * 256 + d] else none
  | _ => none

/-- Pieces between colons; the last ones may be four decimal numbers. -/
def pieces? (cs : List Char) : Option (List Nat) :=
  if cs.isEmpty then some []
  else
    let parts := cs.splitOn ':'
    match parts.getLast? with
    | none => none
    | some last =>
      if last.contains '.' then do
        let first ← parts.dropLast.mapM piece?
        let two ← dotted? last
        some (first ++ two)
      else parts.mapM piece?

/-- Splits at the first pair of colons. -/
def splitPair : List Char → Option (List Char × List Char)
  | ':' :: ':' :: rest => some ([], rest)
  | c :: rest => (splitPair rest).map fun (a, b) => (c :: a, b)
  | [] => none

def eightPieces? (cs : List Char) : Option (List Nat) :=
  match splitPair cs with
  | none => do
    let ps ← pieces? cs
    if ps.length = 8 then some ps else none
  | some (before, after) => do
    let a ← pieces? before
    let b ← pieces? after
    if a.length + b.length < 8 then some (a ++ List.replicate (8 - a.length - b.length) 0 ++ b)
    else none

def hexText (n : Nat) : String := .ofList (Nat.toDigits 16 n)

/-- Where the first longest run of two or more zero pieces begins, and how long it is. -/
def longestZeros (ps : List Nat) : Nat × Nat :=
  (List.range ps.length).foldl (fun (start, len) i =>
    let n := ((ps.drop i).takeWhile (· == 0)).length
    if n > len && n > 1 then (i, n) else (start, len)) (0, 0)

def eightText (ps : List Nat) : String :=
  let (start, len) := longestZeros ps
  let shown (qs : List Nat) := ":".intercalate (qs.map hexText)
  if len = 0 then shown ps
  else shown (ps.take start) ++ "::" ++ shown (ps.drop (start + len))

end Host

open Host

/-- The host of an address of the web. -/
def host? (cs : List Char) : Option String :=
  match cs with
  | '[' :: rest =>
    if rest.getLast? == some ']' then
      (eightPieces? rest.dropLast).map fun ps => "[" ++ eightText ps ++ "]"
    else none
  | _ => do
    let name ← Bytes.decode? (percentDecode cs)
    let name := name.toList.map Char.toLower
    if name.isEmpty || name.any isForbiddenInName then none
    else if endsInNumber name then
      (fourNumbers? name).map fun ns => ".".intercalate (ns.map natText)
    else some (.ofList name)

example : host? "LocalHost".toList = some "localhost" := by decide +kernel
example : host? "127.1".toList = some "127.0.0.1" := by decide +kernel
example : host? "[0:0::1]".toList = some "[::1]" := by decide +kernel
example : host? "a b".toList = none := by decide +kernel

end UiRunner.Http
