import UiRunner.Decimal.Numeral
import UiRunner.Text.Utf8
import UiRunner.Toml.Value

/-!
# Reading TOML

A document is read line by line: a header opens a table, and a key with a value adds to the table
that was opened last. Every reader takes the characters and gives what it read with the rest.
-/
namespace UiRunner.Toml

open Decimal

abbrev Read (α : Type) := List Char → Option (α × List Char)

def isBlank (c : Char) : Bool := c == ' ' || c == '\t'

def skipBlanks (cs : List Char) : List Char := cs.dropWhile isBlank

/-- Control characters other than the tab may stand nowhere. -/
def isControl (c : Char) : Bool := (c.toNat < 0x20 && c != '\t') || c == '\x7f'

def expect (c : Char) : Read Unit
  | d :: rest => if c == d then some ((), rest) else none
  | [] => none

/-- A line break, if one follows. -/
def newline? : List Char → Option (List Char)
  | '\n' :: rest => some rest
  | '\r' :: '\n' :: rest => some rest
  | _ => none

/-- Skips a comment up to its line break. -/
def skipComment (cs : List Char) : List Char :=
  if cs.head? == some '#' then cs.dropWhile fun c => !isControl c else cs

/-- Skips blanks, comments and line breaks. -/
def skipLines : Nat → List Char → List Char
  | 0, cs => cs
  | fuel + 1, cs =>
    let cs := skipComment (skipBlanks cs)
    match newline? cs with
    | some rest => skipLines fuel rest
    | none => cs

/-! ## Strings -/

def hexDigits? (n : Nat) (cs : List Char) : Option (Char × List Char) :=
  let ds := cs.take n
  if ds.length < n then none
  else
    match ds.foldlM (fun v c => (Bytes.hexValue? c.toLower).map (v * 16 + ·)) 0 with
    | some v => if v.isValidChar then some (Char.ofNat v, cs.drop n) else none
    | none => none

/-- What stands behind a backslash. -/
def escape? : Read Char
  | 'b' :: rest => some ('\x08', rest)
  | 't' :: rest => some ('\t', rest)
  | 'n' :: rest => some ('\n', rest)
  | 'f' :: rest => some ('\x0c', rest)
  | 'r' :: rest => some ('\r', rest)
  | '\x22' :: rest => some ('\x22', rest)
  | '\\' :: rest => some ('\\', rest)
  | 'u' :: rest => hexDigits? 4 rest
  | 'U' :: rest => hexDigits? 8 rest
  | _ => none

/-- The inside of a string in double quotes. -/
def basicBody : Nat → List Char → Read (List Char)
  | 0, _, _ => none
  | _ + 1, _, [] => none
  | fuel + 1, acc, c :: cs =>
    if c == '\x22' then some (acc.reverse, cs)
    else if c == '\\' then
      match escape? cs with
      | some (x, rest) => basicBody fuel (x :: acc) rest
      | none => none
    else if isControl c then none
    else basicBody fuel (c :: acc) cs

/-- The inside of a string in single quotes, where nothing is escaped. -/
def literalBody (cs : List Char) : Option (List Char × List Char) :=
  let body := cs.takeWhile fun c => c != '\x27' && !isControl c
  match cs.drop body.length with
  | '\x27' :: rest => some (body, rest)
  | _ => none

/-- Up to two quotes may stand before the closing three. -/
def closing? (q : Char) : List Char → Option (List Char × List Char)
  | a :: b :: c :: d :: e :: rest =>
    if a == q && b == q && c == q then
      if d == q && e == q then some ([q, q], rest)
      else if d == q then some ([q], e :: rest)
      else some ([], d :: e :: rest)
    else none
  | cs =>
    if cs.length ≥ 3 && cs.all (· == q) then some (cs.drop 3, [])
    else
      match cs with
      | a :: b :: c :: rest =>
        if a == q && b == q && c == q then
          some (rest.takeWhile (· == q), rest.dropWhile (· == q))
        else none
      | _ => none

/-- Skips blanks and line breaks behind a backslash at the end of a line. -/
def skipFold : Nat → List Char → List Char
  | 0, cs => cs
  | fuel + 1, cs =>
    let cs := skipBlanks cs
    match newline? cs with
    | some rest => skipFold fuel rest
    | none => cs

/-- The inside of a string over several lines. Line breaks count as one character. -/
def linesBody (q : Char) : Nat → List Char → Read (List Char)
  | 0, _, _ => none
  | _ + 1, _, [] => none
  | fuel + 1, acc, c :: cs =>
    match closing? q (c :: cs) with
    | some (quotes, rest) => some (acc.reverse ++ quotes, rest)
    | none =>
      match newline? (c :: cs) with
      | some rest => linesBody q fuel ('\n' :: acc) rest
      | none =>
        if c == '\\' && q == '\x22' then
          match newline? (skipBlanks cs) with
          | some rest => linesBody q fuel acc (skipFold cs.length rest)
          | none =>
            match escape? cs with
            | some (x, rest) => linesBody q fuel (x :: acc) rest
            | none => none
        else if isControl c then none
        else linesBody q fuel (c :: acc) cs

/-- A string over several lines; a line break right behind the opening does not count. -/
def linesString (q : Char) (cs : List Char) : Option (String × List Char) :=
  let body := (newline? cs).getD cs
  (linesBody q (body.length + 1) [] body).map fun (s, rest) => (.ofList s, rest)

/-- A string on one line. -/
def lineString? : Read String
  | '\x22' :: cs => (basicBody (cs.length + 1) [] cs).map fun (s, rest) => (.ofList s, rest)
  | '\x27' :: cs => (literalBody cs).map fun (s, rest) => (.ofList s, rest)
  | _ => none

def string? (cs : List Char) : Option (String × List Char) :=
  match cs with
  | '\x22' :: '\x22' :: '\x22' :: rest => linesString '\x22' rest
  | '\x27' :: '\x27' :: '\x27' :: rest => linesString '\x27' rest
  | _ => lineString? cs

/-! ## Numbers -/

/-- Digits, between which single underscores may stand. -/
def digitRun (p : Char → Bool) : List Char → List Char × List Char
  | c :: '_' :: d :: rest =>
    if p c && p d then
      let (ds, rest) := digitRun p (d :: rest)
      (c :: ds, rest)
    else if p c then ([c], '_' :: d :: rest)
    else ([], c :: '_' :: d :: rest)
  | c :: rest =>
    if p c then
      let (ds, rest) := digitRun p rest
      (c :: ds, rest)
    else ([], c :: rest)
  | [] => ([], [])
termination_by cs => cs.length

def inRange (i : Int) : Bool := -Int.pow 2 63 ≤ i && i < Int.pow 2 63

def valueIn (base : Nat) (ds : List Char) : Nat :=
  ds.foldl (fun n c => n * base + (Bytes.hexValue? c.toLower).getD 0) 0

def based? (base : Nat) (p : Char → Bool) : Read Int := fun cs =>
  let (ds, rest) := digitRun p cs
  let i : Int := valueIn base ds
  if ds.isEmpty || !inRange i then none else some (i, rest)

/-- The digits of a decimal number; a zero at the beginning stands alone. -/
def wholeDigits (cs : List Char) : List Char × List Char :=
  match cs with
  | '0' :: rest => (['0'], rest)
  | _ => digitRun isDigit cs

def integer? (cs : List Char) : Option (Int × List Char) :=
  match cs with
  | '0' :: 'x' :: rest => based? 16 (fun c => (Bytes.hexValue? c.toLower).isSome) rest
  | '0' :: 'o' :: rest => based? 8 (fun c => '0' ≤ c && c ≤ '7') rest
  | '0' :: 'b' :: rest => based? 2 (fun c => c == '0' || c == '1') rest
  | _ =>
    let (negative, body) := splitSign cs
    let (ds, rest) := wholeDigits body
    let i : Int := if negative then -(digitsValue ds : Nat) else (digitsValue ds : Nat)
    if ds.isEmpty || !inRange i then none else some (i, rest)

def exponent? : Read Int
  | c :: rest =>
    if c == 'e' || c == 'E' then
      let (negative, body) := splitSign rest
      let (ds, rest) := digitRun isDigit body
      if ds.isEmpty then none
      else some (if negative then -(digitsValue ds : Nat) else (digitsValue ds : Nat), rest)
    else none
  | [] => none

/-- A number with a point or an exponent. One that is too large is refused. -/
def float? (cs : List Char) : Option (Binary64 × List Char) :=
  let (negative, body) := splitSign cs
  match body with
  | 'i' :: 'n' :: 'f' :: rest => some (Binary64.infinity negative, rest)
  | 'n' :: 'a' :: 'n' :: rest => some (Binary64.nan, rest)
  | _ =>
    let (whole, rest) := wholeDigits body
    if whole.isEmpty then none
    else
      let (places, rest') := match rest with
        | '.' :: more => digitRun isDigit more
        | _ => ([], rest)
      if rest.head? == some '.' && places.isEmpty then none
      else
        match exponent? rest' with
        | some (e, tail) => finish negative whole places e tail
        | none => if places.isEmpty then none else finish negative whole places 0 rest'
where
  finish (negative : Bool) (whole places : List Char) (e : Int) (rest : List Char) :
      Option (Binary64 × List Char) :=
    let x := Binary64.ofDecimal negative (digitsValue (whole ++ places)) (e - places.length)
    if !x.isFinite && !negative then none else some (x, rest)

/-! ## Dates and times -/

/-- So many digits, as a number within bounds. -/
def fixedDigits? (n low high : Nat) (cs : List Char) : Option (Nat × List Char) :=
  let ds := cs.take n
  let v := digitsValue ds
  if ds.length = n ∧ ds.all isDigit ∧ low ≤ v ∧ v ≤ high then some (v, cs.drop n) else none

def isLeap (year : Nat) : Bool := year % 4 == 0 && (year % 100 != 0 || year % 400 == 0)

def daysIn (year month : Nat) : Nat :=
  if month = 2 then (if isLeap year then 29 else 28)
  else if month ∈ [4, 6, 9, 11] then 30
  else 31

def dateRest? (cs : List Char) : Option (List Char) := do
  let (year, cs) ← fixedDigits? 4 0 9999 cs
  let (_, cs) ← expect '-' cs
  let (month, cs) ← fixedDigits? 2 1 12 cs
  let (_, cs) ← expect '-' cs
  let (_, cs) ← fixedDigits? 2 1 (daysIn year month) cs
  some cs

def timeRest? (cs : List Char) : Option (List Char) := do
  let (_, cs) ← fixedDigits? 2 0 23 cs
  let (_, cs) ← expect ':' cs
  let (_, cs) ← fixedDigits? 2 0 59 cs
  let (_, cs) ← expect ':' cs
  let (_, cs) ← fixedDigits? 2 0 60 cs
  match cs with
  | '.' :: d :: more => if isDigit d then some (more.dropWhile isDigit) else some cs
  | _ => some cs

def offsetRest (cs : List Char) : List Char :=
  match cs with
  | 'Z' :: rest | 'z' :: rest => rest
  | s :: rest =>
    if s == '+' || s == '-' then
      ((do
        let (_, cs) ← fixedDigits? 2 0 23 rest
        let (_, cs) ← expect ':' cs
        let (_, cs) ← fixedDigits? 2 0 59 cs
        some cs).getD (s :: rest))
    else s :: rest
  | [] => []

def isDateTimeSeparator (c : Char) : Bool := c == 'T' || c == 't' || c == ' '

def dateTimeRest? (cs : List Char) : Option (List Char) :=
  match dateRest? cs with
  | none => timeRest? cs
  | some rest =>
    match rest with
    | c :: more =>
      if isDateTimeSeparator c then
        match timeRest? more with
        | some after => some (offsetRest after)
        | none => some rest
      else some rest
    | [] => some []

def dateTime? (cs : List Char) : Option (Toml × List Char) :=
  (dateTimeRest? cs).map fun rest => (.date (.ofList (cs.take (cs.length - rest.length))), rest)

/-! ## Keys -/

def isBare (c : Char) : Bool := c.isAlphanum || c == '-' || c == '_'

def simpleKey? (cs : List Char) : Option (String × List Char) :=
  match cs with
  | '\x22' :: _ | '\x27' :: _ => lineString? cs
  | _ =>
    let name := cs.takeWhile isBare
    if name.isEmpty then none else some (.ofList name, cs.drop name.length)

/-- How deep values and keys may be nested. -/
def maxDepth : Nat := 80

/-- A key of one or more parts between dots. -/
def dottedKey? : Nat → Read (List String)
  | 0, _ => none
  | fuel + 1, cs =>
    match simpleKey? (skipBlanks cs) with
    | none => none
    | some (name, rest) =>
      let rest := skipBlanks rest
      match rest with
      | '.' :: more => (dottedKey? fuel more).map fun (names, rest) => (name :: names, rest)
      | _ => some ([name], rest)

def key? (cs : List Char) : Option (List String × List Char) :=
  match dottedKey? cs.length cs with
  | some (names, rest) => if names.length < maxDepth then some (names, rest) else none
  | none => none

/-! ## Values -/

/-- A value that begins with a digit or a sign. -/
def numeric? (cs : List Char) : Option (Toml × List Char) :=
  match dateTime? cs with
  | some r => some r
  | none =>
    match float? cs with
    | some (x, rest) => some (.float x, rest)
    | none => (integer? cs).map fun (i, rest) => (.int i, rest)

def word? (cs : List Char) : Option (Toml × List Char) :=
  match cs with
  | 't' :: 'r' :: 'u' :: 'e' :: rest => some (.bool true, rest)
  | 'f' :: 'a' :: 'l' :: 's' :: 'e' :: rest => some (.bool false, rest)
  | _ => (float? cs).map fun (x, rest) => (.float x, rest)

mutual

/-- A value, with room for so many brackets inside one another. -/
def value? : Nat → Nat → Read Toml
  | 0, _, _ => none
  | fuel + 1, room, cs =>
    match cs with
    | '[' :: rest =>
      if room = 0 then none else (items? fuel (room - 1) rest).map fun (xs, r) => (.arr xs, r)
    | '\x7b' :: rest =>
      if room = 0 then none
      else
        match skipBlanks rest with
        | '\x7d' :: after => some (.table [], after)
        | _ => (entries? fuel (room - 1) {} rest).map fun (t, r) => (t.node.toValue, r)
    | '\x22' :: _ | '\x27' :: _ => (string? cs).map fun (s, r) => (.str s, r)
    | c :: _ => if isDigit c || c == '+' || c == '-' then numeric? cs else word? cs
    | [] => none

/-- The rest of an array. A comma may stand behind the last value. -/
def items? : Nat → Nat → Read (List Toml)
  | 0, _, _ => none
  | fuel + 1, room, cs =>
    match skipLines cs.length cs with
    | ']' :: rest => some ([], rest)
    | cs =>
      match value? fuel room cs with
      | none => none
      | some (v, rest) =>
        match skipLines rest.length rest with
        | ',' :: rest => (items? fuel room rest).map fun (vs, r) => (v :: vs, r)
        | ']' :: rest => some ([v], rest)
        | _ => none

/-- The rest of a table in braces, which stands on one line. -/
def entries? : Nat → Nat → Table → Read Table
  | 0, _, _, _ => none
  | fuel + 1, room, t, cs =>
    match key? cs with
    | none => none
    | some (names, rest) =>
      match rest with
      | '=' :: rest =>
        match value? fuel room (skipBlanks rest) with
        | none => none
        | some (v, rest) =>
          match t.add? names.dropLast (names.getLast?.getD "") v with
          | none => none
          | some t =>
            match skipBlanks rest with
            | ',' :: rest => entries? fuel room t rest
            | '\x7d' :: rest => some (t, rest)
            | _ => none
      | _ => none

end

/-! ## Documents -/

/-- The rest of a line holds nothing but a comment. -/
def endLine? (cs : List Char) : Option (List Char) :=
  match skipComment (skipBlanks cs) with
  | [] => some []
  | cs => newline? cs

/-- What was read so far: the whole, and the path to the table that was opened last. -/
structure Progress where
  root : Table := {}
  opened : List String := []

def header (p : Progress) (double : Bool) (cs : List Char) : Option (Progress × List Char) := do
  let (names, rest) ← key? cs
  let (_, rest) ← expect ']' rest
  let rest ← if double then (expect ']' rest).map (·.2) else some rest
  let name ← names.getLast?
  let root ← if double then p.root.append? names.dropLast name else p.root.open? names.dropLast name
  some (⟨root, names⟩, rest)

def entry (p : Progress) (cs : List Char) : Option (Progress × List Char) := do
  let (names, rest) ← key? cs
  let (_, rest) ← expect '=' rest
  let (v, rest) ← value? (rest.length + 1) (maxDepth - 1) (skipBlanks rest)
  let name ← names.getLast?
  let root ← p.root.addWithin? p.opened names.dropLast name v
  some ({ p with root }, rest)

/-- Reads what stands on one line, if anything does. -/
def line (p : Progress) (cs : List Char) : Option (Progress × List Char) :=
  match cs with
  | '[' :: '[' :: rest => header p true rest
  | '[' :: rest => header p false rest
  | _ => entry p cs

def linesFrom : Nat → Progress → List Char → Option Table
  | 0, _, _ => none
  | fuel + 1, p, cs =>
    match skipLines cs.length cs with
    | [] => some p.root
    | cs =>
      match line p cs with
      | none => none
      | some (p, rest) =>
        match endLine? rest with
        | none => none
        | some rest => linesFrom fuel p rest

/-- Reads a document. A mark of the byte order at its beginning does not count. -/
def read? (s : String) : Option (List (String × Toml)) :=
  let cs := match s.toList with
    | '\ufeff' :: rest => rest
    | cs => cs
  (linesFrom (cs.length + 1) {} cs).map fun t => Node.fieldValues t.fields

end UiRunner.Toml
