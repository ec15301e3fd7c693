import UiRunner.Json.Value

/-!
# Reading JSON

Reading goes in two stages. `Tree.read?` checks the grammar and keeps all fields as written;
`Tree.value?` makes a value and refuses what only a value cannot be: a number out of range, an
escape that stands for no character, brackets nested too deep. A part that nobody asks for needs
only the first stage.
-/
namespace UiRunner.Json

open Decimal

inductive Tree where
  | null
  | bool (b : Bool)
  | num (n : Option Number)
  | str (s : Option String)
  | arr (items : List Tree)
  | obj (fields : List (Option String × Tree))
deriving Inhabited

/-! ## Numbers -/

def maxWord : Nat := Nat.pow 2 64 - 1

/-- The leading digits that fit a word of 64 bits, and the number of digits left over. -/
def leadingDigits (acc : Nat) : List Char → Nat × Nat
  | [] => (acc, 0)
  | c :: cs =>
    let next := acc * 10 + (c.toNat - 48)
    if next > maxWord then (acc, cs.length + 1) else leadingDigits next cs

/-- Appends digits after the point while they fit, and counts them. -/
def appendPlaces (acc taken : Nat) : List Char → Nat × Nat
  | [] => (acc, taken)
  | c :: cs =>
    let next := acc * 10 + (c.toNat - 48)
    if next > maxWord then (acc, taken) else appendPlaces next (taken + 1) cs

def powerOfTen (n : Nat) : Binary64 := .ofNat (Nat.pow 10 n)

/-- Multiplies or divides by a power of ten in steps of at most 308; nothing if that overflows. -/
def scale : Nat → Binary64 → Int → Option Binary64
  | 0, _, _ => some (.zero false)
  | fuel + 1, f, e =>
    if e.natAbs ≤ 308 then
      if 0 ≤ e then
        let r := f.mul (powerOfTen e.natAbs)
        if r.isFinite then some r else none
      else some (f.div (powerOfTen e.natAbs))
    else if f.isZero then some f
    else if 0 ≤ e then none
    else scale fuel (f.div (powerOfTen 308)) (e + 308)

def negate (x : Binary64) : Binary64 := ⟨x.bits ^^^ 0x8000000000000000⟩

def signed (negative : Bool) (x : Binary64) : Binary64 := if negative then negate x else x

/-- The number of a numeral: whole ones within 64 bits stay whole, all others are the leading
digits times a power of ten. -/
def numberOf (negative : Bool) (whole places : List Char) (exponent : Option (Bool × List Char)) :
    Option Number :=
  let (n, extra) := leadingDigits 0 whole
  if places.isEmpty && exponent.isNone && extra == 0 then
    if !negative then some (.int n)
    else if n = 0 ∨ n > Nat.pow 2 63 then some (.float (negate (.ofNat n)))
    else some (.int (-n))
  else
    let (m, taken) := appendPlaces n 0 places
    let base : Int := (extra : Int) - taken
    match exponent with
    | none => (scale 8 (.ofNat m) base).map fun x => .float (signed negative x)
    | some (below, ds) =>
      let e := digitsValue ds
      if e > Nat.pow 2 31 - 1 then
        if m ≠ 0 ∧ !below then none else some (.float (.zero negative))
      else
        (scale 8 (.ofNat m) (if below then base - e else base + e)).map fun x =>
          .float (signed negative x)

/-- The digits after an exponent letter, with a flag for a minus sign. -/
def exponentPart : List Char → Option ((Bool × List Char) × List Char)
  | [] => none
  | c :: cs =>
    let (below, ds) :=
      if c == '-' then (true, cs) else if c == '+' then (false, cs) else (false, c :: cs)
    let digits := ds.takeWhile isDigit
    if digits.isEmpty then none else some ((below, digits), ds.dropWhile isDigit)

def unsignedNumeral (negative : Bool) (cs : List Char) : Option (Tree × List Char) := do
  let whole := cs.takeWhile isDigit
  let rest := cs.dropWhile isDigit
  if whole.isEmpty || (whole.length > 1 && whole.head? == some '0') then none
  else
    let (places, rest) ← match rest with
      | '.' :: more =>
        let ds := more.takeWhile isDigit
        if ds.isEmpty then none else some (ds, more.dropWhile isDigit)
      | _ => some ([], rest)
    let (exponent, rest) ← match rest with
      | 'e' :: more | 'E' :: more => (exponentPart more).map fun (e, r) => (some e, r)
      | _ => some (none, rest)
    some (.num (numberOf negative whole places exponent), rest)

/-! ## Strings -/

def hex4? : List Char → Option (Nat × List Char)
  | a :: b :: c :: d :: rest => do
    let digit (c : Char) : Option Nat :=
      if isDigit c then some (c.toNat - 48)
      else if 'a' ≤ c && c ≤ 'f' then some (c.toNat - 87)
      else if 'A' ≤ c && c ≤ 'F' then some (c.toNat - 55)
      else none
    return ((((← digit a) * 16 + (← digit b)) * 16 + (← digit c)) * 16 + (← digit d), rest)
  | _ => none

def simpleEscape? (c : Char) : Option Char :=
  if c == '\x22' || c == '\\' || c == '/' then some c
  else if c == 'b' then some '\x08'
  else if c == 'f' then some '\x0c'
  else if c == 'n' then some '\n'
  else if c == 'r' then some '\r'
  else if c == 't' then some '\t'
  else none

/-- A character to add to a text; nothing once the text holds what is no character. -/
def addChar (c : Char) (text : Option (List Char)) : Option (List Char) := text.map (c :: ·)

/-- An escape of four hexadecimal digits. Two of them may form one character; one that forms none
spoils the text, yet the reading goes on behind it. -/
def unicodeEscape (cs : List Char) : Option (Option Char × List Char) := do
  let (n, rest) ← hex4? cs
  if 0xDC00 ≤ n && n ≤ 0xDFFF then some (none, rest)
  else if 0xD800 ≤ n && n ≤ 0xDBFF then
    match rest with
    | '\\' :: 'u' :: more =>
      match hex4? more with
      | none => none
      | some (low, rest') =>
        if 0xDC00 ≤ low && low ≤ 0xDFFF then
          some (some (Char.ofNat ((n - 0xD800) * 1024 + (low - 0xDC00) + 0x10000)), rest')
        else some (none, rest)
    | _ => some (none, rest)
  else some (some (Char.ofNat n), rest)

/-- The text up to the closing quote. The characters are collected in reverse. -/
def stringBody : Nat → Option (List Char) → List Char → Option (Option String × List Char)
  | 0, _, _ => none
  | _, _, [] => none
  | fuel + 1, text, c :: cs =>
    if c == '\x22' then some (text.map fun t => .ofList t.reverse, cs)
    else if c == '\\' then
      match cs with
      | [] => none
      | 'u' :: more =>
        match unicodeEscape more with
        | none => none
        | some (some ch, rest) => stringBody fuel (addChar ch text) rest
        | some (none, rest) => stringBody fuel none rest
      | e :: more =>
        match simpleEscape? e with
        | none => none
        | some ch => stringBody fuel (addChar ch text) more
    else if c.toNat < 32 then none
    else stringBody fuel (addChar c text) cs

/-! ## Values -/

def isSpace (c : Char) : Bool := c == ' ' || c == '\n' || c == '\t' || c == '\r'

def skipSpace (cs : List Char) : List Char := cs.dropWhile isSpace

def literal? (word : String) (t : Tree) (cs : List Char) : Option (Tree × List Char) :=
  if word.toList.isPrefixOf cs then some (t, cs.drop word.length) else none

mutual

/-- A value that begins at the first character. The fuel bounds the number of brackets. -/
def treeAt : Nat → List Char → Option (Tree × List Char)
  | 0, _ => none
  | _, [] => none
  | fuel + 1, c :: cs =>
    if c == 'n' then literal? "null" .null (c :: cs)
    else if c == 't' then literal? "true" (.bool true) (c :: cs)
    else if c == 'f' then literal? "false" (.bool false) (c :: cs)
    else if c == '-' then unsignedNumeral true cs
    else if isDigit c then unsignedNumeral false (c :: cs)
    else if c == '\x22' then
      (stringBody (cs.length + 1) (some []) cs).map fun (s, rest) => (.str s, rest)
    else if c == '[' then
      match skipSpace cs with
      | ']' :: rest => some (.arr [], rest)
      | rest => (itemsAt fuel rest).map fun (items, rest) => (.arr items, rest)
    else if c == '\x7b' then
      match skipSpace cs with
      | '\x7d' :: rest => some (.obj [], rest)
      | rest => (fieldsAt fuel rest).map fun (fields, rest) => (.obj fields, rest)
    else none

/-- Items up to the closing bracket, at least one. -/
def itemsAt : Nat → List Char → Option (List Tree × List Char)
  | 0, _ => none
  | fuel + 1, cs =>
    match treeAt fuel cs with
    | none => none
    | some (t, rest) =>
      match skipSpace rest with
      | ']' :: rest => some ([t], rest)
      | ',' :: rest => (itemsAt fuel (skipSpace rest)).map fun (ts, rest) => (t :: ts, rest)
      | _ => none

/-- Fields up to the closing brace, at least one. -/
def fieldsAt : Nat → List Char → Option (List (Option String × Tree) × List Char)
  | 0, _ => none
  | fuel + 1, cs =>
    match cs with
    | '\x22' :: more =>
      match stringBody (more.length + 1) (some []) more with
      | none => none
      | some (name, rest) =>
        match skipSpace rest with
        | ':' :: rest =>
          match treeAt fuel (skipSpace rest) with
          | none => none
          | some (t, rest) =>
            match skipSpace rest with
            | '\x7d' :: rest => some ([(name, t)], rest)
            | ',' :: rest =>
              (fieldsAt fuel (skipSpace rest)).map fun (fs, rest) => ((name, t) :: fs, rest)
            | _ => none
        | _ => none
    | _ => none

end

/-- The whole text is one value with space around it. -/
def Tree.read? (s : String) : Option Tree :=
  let cs := s.toList
  match treeAt (2 * cs.length + 1) (skipSpace cs) with
  | some (t, rest) => if (skipSpace rest).isEmpty then some t else none
  | none => none

/-- One more than the brackets that may be open at once. -/
def maxDepth : Nat := 128

mutual

/-- The value, where `room` more brackets may not be opened. -/
def Tree.valueAt? (room : Nat) : Tree → Option Json
  | .null => some .null
  | .bool b => some (.bool b)
  | .num n => n.map .num
  | .str s => s.map .str
  | .arr items => if room ≤ 1 then none else (itemsAt? (room - 1) items).map .arr
  | .obj fields => if room ≤ 1 then none else (fieldsAt? (room - 1) fields).map ofFields

def Tree.itemsAt? (room : Nat) : List Tree → Option (List Json)
  | [] => some []
  | t :: ts => do return (← t.valueAt? room) :: (← itemsAt? room ts)

def Tree.fieldsAt? (room : Nat) : List (Option String × Tree) → Option (List (String × Json))
  | [] => some []
  | (name, t) :: rest => do return (← name, ← t.valueAt? room) :: (← fieldsAt? room rest)

end

def Tree.value? (t : Tree) : Option Json := t.valueAt? maxDepth

/-- The value that a text spells. -/
def read? (s : String) : Option Json := (Tree.read? s).bind Tree.value?

end UiRunner.Json
