/-!
# Texts as bytes

A text is stored and sent as UTF-8. `decode?` reads a text back and refuses ill-formed bytes;
`decodeLossy` reads any bytes and puts U+FFFD for each longest ill-formed piece. What is sent may
also begin with a byte order mark, which names its encoding and is no part of the text
(`decodeMarked`).
-/
namespace UiRunner

/-- The contents of a file, a reply or an output. -/
abbrev Bytes := List UInt8

namespace Bytes

def ofText (s : String) : Bytes := s.toUTF8.toList

def decode? (b : Bytes) : Option String := String.fromUTF8? ⟨b.toArray⟩

theorem toList_loop (b : ByteArray) (i : Nat) (r : List UInt8) :
    ByteArray.toList.loop b i r = r.reverse ++ b.data.toList.drop i := by
  fun_induction ByteArray.toList.loop b i r with
  | case1 i r less ih =>
    have inside : i < b.data.toList.length := less
    rw [ih, List.drop_eq_getElem_cons inside]
    simp [ByteArray.get!, less]
  | case2 i r less =>
    have all : b.data.toList.length ≤ i := Nat.not_lt.1 less
    rw [List.drop_eq_nil_of_le all, List.append_nil]

/-- A text is read back from its bytes. -/
theorem decode?_ofText (s : String) : decode? (ofText s) = some s := by
  have same : (⟨s.toUTF8.toList.toArray⟩ : ByteArray) = s.toUTF8 := by
    rw [ByteArray.toList, toList_loop]
    rfl
  have valid : s.toUTF8.IsValidUTF8 := s.isValidUTF8
  rw [decode?, ofText, same, String.fromUTF8?, dif_pos valid]
  rfl

/-- The first character of a well-formed sequence with what follows it, or else the number of
bytes that one replacement character stands for. -/
inductive Head where
  | char (c : Char) (length : Nat)
  | broken (length : Nat)

/-- Length of a sequence by its first byte, and the range of its second byte. -/
def shape (b : UInt8) : Option (Nat × UInt8 × UInt8) :=
  if b < 0x80 then some (1, 0x80, 0xBF)
  else if b < 0xC2 then none
  else if b < 0xE0 then some (2, 0x80, 0xBF)
  else if b == 0xE0 then some (3, 0xA0, 0xBF)
  else if b == 0xED then some (3, 0x80, 0x9F)
  else if b < 0xF0 then some (3, 0x80, 0xBF)
  else if b == 0xF0 then some (4, 0x90, 0xBF)
  else if b < 0xF4 then some (4, 0x80, 0xBF)
  else if b == 0xF4 then some (4, 0x80, 0x8F)
  else none

def isContinuation (b : UInt8) : Bool := 0x80 ≤ b && b ≤ 0xBF

def payload (n : Nat) (b : UInt8) : Nat := n * 64 + b.toNat % 64

def head (b : UInt8) (rest : Bytes) : Head :=
  match shape b with
  | none => .broken 1
  | some (1, _, _) => .char (Char.ofNat b.toNat) 1
  | some (n, lo, hi) =>
    match rest with
    | [] => .broken 1
    | b₁ :: rest₁ =>
      if !(lo ≤ b₁ && b₁ ≤ hi) then .broken 1
      else
        let tail := rest₁.take (n - 2)
        let good := tail.takeWhile isContinuation
        if good.length < n - 2 then .broken (2 + good.length)
        else
          let lead := b.toNat % (if n == 2 then 32 else if n == 3 then 16 else 8)
          .char (Char.ofNat (good.foldl payload (payload lead b₁))) n

def decodeLossyChars : Nat → Bytes → List Char
  | 0, _ => []
  | _, [] => []
  | fuel + 1, b :: rest =>
    match head b rest with
    | .char c n => c :: decodeLossyChars fuel (rest.drop (n - 1))
    | .broken n => '\uFFFD' :: decodeLossyChars fuel (rest.drop (n - 1))

def decodeLossy (b : Bytes) : String := .ofList (decodeLossyChars b.length b)

/-- The units of a text of two bytes each, and whether a byte is left over. -/
def units (bigEndian : Bool) : Bytes → List Nat × Bool
  | [] => ([], false)
  | [_] => ([], true)
  | a :: b :: rest =>
    let (us, odd) := units bigEndian rest
    let (hi, lo) := if bigEndian then (a, b) else (b, a)
    ((hi.toNat * 256 + lo.toNat) :: us, odd)

def isLeading (u : Nat) : Bool := 0xD800 ≤ u && u < 0xDC00

def isTrailing (u : Nat) : Bool := 0xDC00 ≤ u && u < 0xE000

/-- Pairs of units are one character; a unit that lacks its partner is replaced. -/
def charsOfUnits : List Nat → List Char
  | [] => []
  | [u] => [lone u]
  | u :: v :: rest =>
    if isLeading u && isTrailing v then
      Char.ofNat (0x10000 + (u - 0xD800) * 1024 + (v - 0xDC00)) :: charsOfUnits rest
    else lone u :: charsOfUnits (v :: rest)
where
  lone (u : Nat) : Char := if isLeading u || isTrailing u then '\uFFFD' else Char.ofNat u

def decodeUnits (bigEndian : Bool) (b : Bytes) : String :=
  let (us, odd) := units bigEndian b
  .ofList (charsOfUnits us ++ if odd then ['\uFFFD'] else [])

/-- Reads any bytes; without a byte order mark they are UTF-8. -/
def decodeMarked : Bytes → String
  | 0xEF :: 0xBB :: 0xBF :: rest => decodeLossy rest
  | 0xFF :: 0xFE :: rest => decodeUnits false rest
  | 0xFE :: 0xFF :: rest => decodeUnits true rest
  | b => decodeLossy b

def hexDigit (n : Nat) : Char :=
  if n < 10 then Char.ofNat (48 + n) else Char.ofNat (87 + n)

/-- The value of a hexadecimal digit, capital or small. -/
def hexValue? (c : Char) : Option Nat :=
  if '0' ≤ c && c ≤ '9' then some (c.toNat - 48)
  else if 'a' ≤ c && c ≤ 'f' then some (c.toNat - 87)
  else if 'A' ≤ c && c ≤ 'F' then some (c.toNat - 55)
  else none

/-- Two small hexadecimal digits a byte. -/
def toHex (b : Bytes) : String :=
  .ofList (b.flatMap fun x => [hexDigit (x.toNat / 16), hexDigit (x.toNat % 16)])

def ofHexChars : List Char → Option Bytes
  | [] => some []
  | a :: b :: rest => do
    let hi ← hexValue? a
    let lo ← hexValue? b
    return UInt8.ofNat (hi * 16 + lo) :: (← ofHexChars rest)
  | [_] => none

def ofHex? (s : String) : Option Bytes := ofHexChars s.toList

example : charsOfUnits [0x68, 0xD83D, 0xDE00, 0xD83D] = ['h', '😀', '\uFFFD'] := by decide

end Bytes

end UiRunner
