import UiRunner.Decimal.Numeral
import UiRunner.Text.Utf8

/-!
# Base64

Three bytes are written as four characters of six bits each; an incomplete last group is filled up
with equals signs.
-/
namespace UiRunner.Text.Base64

open Decimal

def alphabet : List Char :=
  "ABCDEFGHIJKLMNOPQRSTUVWXYZabcdefghijklmnopqrstuvwxyz0123456789+/".toList

def digit (n : Nat) : Char := alphabet.getD n '='

def value? (c : Char) : Option Nat := alphabet.findIdx? (· == c)

def encodeChars : Bytes → List Char
  | a :: b :: c :: rest =>
    let n := a.toNat * 65536 + b.toNat * 256 + c.toNat
    [digit (n / 262144), digit (n / 4096 % 64), digit (n / 64 % 64), digit (n % 64)] ++
      encodeChars rest
  | [a, b] =>
    let n := a.toNat * 256 + b.toNat
    [digit (n / 1024), digit (n / 16 % 64), digit (n % 16 * 4), '=']
  | [a] => [digit (a.toNat / 4), digit (a.toNat % 4 * 16), '=', '=']
  | [] => []

def encode (b : Bytes) : String := .ofList (encodeChars b)

/-- Why a text is not base64. -/
inductive Problem where
  | byte (value : UInt8) (offset : Nat)
  | remainder
  | lastSymbol (value : UInt8) (offset : Nat)
  | padding
deriving DecidableEq, Repr

def Problem.message : Problem → String
  | .byte b offset => s!"Invalid byte {natText b.toNat}, offset {natText offset}."
  | .remainder => "Encoded text cannot have a 6-bit remainder."
  | .lastSymbol b offset => s!"Invalid last symbol {natText b.toNat}, offset {natText offset}."
  | .padding => "Invalid padding"

def sextet? (offset : Nat) (b : UInt8) : Except Problem Nat :=
  match value? (Char.ofNat b.toNat) with
  | some n => .ok n
  | none => .error (.byte b offset)

/-- The last group: its digits, and then nothing but equals signs. -/
def decodeLast (offset : Nat) (group : Bytes) : Except Problem Bytes := do
  let digits := group.takeWhile (· != 0x3d)
  let rest := group.dropWhile (· != 0x3d)
  let ns ← digits.zipIdx.mapM fun (b, i) => sextet? (offset + i) b
  match rest.zipIdx.find? (·.1 != 0x3d) with
  | some (_, _) => .error (.byte 0x3d (offset + digits.length))
  | none =>
    match digits, ns with
    | [], [] => if rest.isEmpty then .ok [] else .error (.byte 0x3d offset)
    | [_], _ => if rest.isEmpty then .error .remainder else .error (.byte 0x3d (offset + 1))
    | [_, c], [x, y] =>
      if y % 16 != 0 then .error (.lastSymbol c (offset + 1))
      else if rest.length != 2 then .error .padding
      else .ok [UInt8.ofNat (x * 4 + y / 16)]
    | [_, _, c], [x, y, z] =>
      if z % 4 != 0 then .error (.lastSymbol c (offset + 2))
      else if rest.length != 1 then .error .padding
      else .ok [UInt8.ofNat (x * 4 + y / 16), UInt8.ofNat (y % 16 * 16 + z / 4)]
    | _, [x, y, z, w] =>
      .ok [UInt8.ofNat (x * 4 + y / 16), UInt8.ofNat (y % 16 * 16 + z / 4),
      UInt8.ofNat (z % 4 * 64 + w)]
    | _, _ => .error .padding

def decodeFrom (offset : Nat) : Bytes → Except Problem Bytes
  | a :: b :: c :: d :: e :: rest => do
    let head ← [a, b, c, d].zipIdx.mapM fun (x, i) => sextet? (offset + i) x
    let tail ← decodeFrom (offset + 4) (e :: rest)
    match head with
    | [x, y, z, w] =>
      .ok ([UInt8.ofNat (x * 4 + y / 16), UInt8.ofNat (y % 16 * 16 + z / 4),
        UInt8.ofNat (z % 4 * 64 + w)] ++ tail)
    | _ => .error .padding
  | group => decodeLast offset group

def decode (s : String) : Except Problem Bytes := decodeFrom 0 (Bytes.ofText s)

example : (decode (encode (Bytes.ofText "PNG!"))).toOption = some (Bytes.ofText "PNG!") := by
  decide +kernel

end UiRunner.Text.Base64
