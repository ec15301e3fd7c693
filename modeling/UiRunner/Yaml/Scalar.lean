import UiRunner.Yaml.Cursor

/-!
# Scalars

The texts of a YAML document: without quotes, in single or double quotes, or as a block of lines.
A line break inside a text that is not a block of literal lines becomes a blank, and further ones
stay.
-/
namespace UiRunner.Yaml

/-- The blanks and breaks between two parts of a text. -/
structure Pause where
  /-- A line was begun. -/
  broken : Bool := false
  blanks : List Char := []
  first : List Char := []
  further : List Char := []

namespace Pause

def isEmpty (p : Pause) : Bool := !p.broken && p.blanks.isEmpty

/-- What a pause leaves in the text. -/
def text (p : Pause) : List Char :=
  if p.broken then
    if p.first == ['\n'] then (if p.further.isEmpty then [' '] else p.further)
    else p.first ++ p.further
  else p.blanks

end Pause

/-- Reads blanks and breaks. In a text without quotes a tab must not stand before the indentation
of the text. -/
def pauseFrom (tabsFrom : Option Nat) : Nat → Pause → Cursor → Option (Pause × Cursor)
  | 0, p, c => some (p, c)
  | fuel + 1, p, c =>
    match c.peek? with
    | none => some (p, c)
    | some x =>
      if isBlank x then
        if p.broken && x == '\t' && tabsFrom.any (c.column < ·) then none
        else
          let p := if p.broken then p else { p with blanks := p.blanks ++ [x] }
          pauseFrom tabsFrom fuel p c.next
      else if isBreak x then
        let (b, c) := c.takeBreak
        pauseFrom tabsFrom fuel
          (if p.broken then { p with further := p.further ++ b }
           else { p with broken := true, blanks := [], first := b }) c
      else some (p, c)

/-! ## Without quotes -/

def isFlowSign (c : Char) : Bool := c ∈ [',', '[', ']', '\x7b', '\x7d']

/-- The part up to a blank, a break or the sign that ends the text. A colon in brackets must not be
followed by a sign. -/
def plainRun (inFlow : Bool) : Nat → List Char → Cursor → Option (List Char × Cursor)
  | 0, acc, c => some (acc.reverse, c)
  | fuel + 1, acc, c =>
    match c.peek? with
    | none => some (acc.reverse, c)
    | some x =>
      if isBlank x || isBreak x then some (acc.reverse, c)
      else if inFlow && x == ':' && (c.peekAt? 1).any (fun y => isFlowSign y || y == '?') then none
      else if (x == ':' && c.isGap 1) || (inFlow && isFlowSign x) then some (acc.reverse, c)
      else plainRun inFlow fuel (x :: acc) c.next

/-- A text without quotes, and whether it ended at the beginning of a line. -/
def plainFrom (inFlow : Bool) (indent : Nat) :
    Nat → List Char → Pause → Cursor → Option (List Char × Bool × Cursor)
  | 0, _, _, _ => none
  | fuel + 1, acc, p, c =>
    if c.isDocumentMark || c.is '#' then some (acc, p.broken, c)
    else
      match plainRun inFlow c.rest.length [] c with
      | none => none
      | some (run, c') =>
        let acc := if run.isEmpty then acc else acc ++ p.text ++ run
        let p := if run.isEmpty then p else {}
        if !c'.sees (fun x => isBlank x || isBreak x) then some (acc, p.broken, c')
        else
          match pauseFrom (some indent) c'.rest.length p c' with
          | none => none
          | some (p, c) =>
            if !inFlow && c.column < indent then some (acc, p.broken, c)
            else plainFrom inFlow indent fuel acc p c

def plain (inFlow : Bool) (indent : Nat) (c : Cursor) : Option (String × Bool × Cursor) :=
  (plainFrom inFlow indent (c.rest.length + 1) [] {} c).map fun (cs, broken, c) =>
    (.ofList cs, broken, c)

/-! ## In quotes -/

def hexValue? (cs : List Char) : Option Nat :=
  cs.foldlM (fun n c => (Bytes.hexValue? c.toLower).map (n * 16 + ·)) 0

/-- The character that an escape letter stands for. -/
def simpleEscape? (c : Char) : Option Char :=
  match c with
  | '0' => some '\x00'
  | 'a' => some '\x07'
  | 'b' => some '\x08'
  | 't' | '\t' => some '\t'
  | 'n' => some '\n'
  | 'v' => some '\x0b'
  | 'f' => some '\x0c'
  | 'r' => some '\r'
  | 'e' => some '\x1b'
  | ' ' => some ' '
  | '\x22' => some '\x22'
  | '/' => some '/'
  | '\\' => some '\\'
  | 'N' => some '\x85'
  | '_' => some '\xa0'
  | 'L' => some '\u2028'
  | 'P' => some '\u2029'
  | _ => none

def escapeLength? (c : Char) : Option Nat :=
  match c with
  | 'x' => some 2
  | 'u' => some 4
  | 'U' => some 8
  | _ => none

/-- The character that an escape stands for, behind its backslash. -/
def escape? (c : Cursor) : Option (Char × Cursor) := do
  let x ← c.peek?
  match simpleEscape? x with
  | some y => some (y, c.next)
  | none =>
    let n ← escapeLength? x
    let ds := (c.rest.drop 1).take n
    let v ← hexValue? ds
    if ds.length = n && v.isValidChar then some (Char.ofNat v, c.skip (n + 1)) else none

/-- The part up to a blank, a break or the closing quote; a backslash before a line break begins a
pause. -/
def quotedRun (q : Char) : Nat → List Char → Cursor → Option (List Char × Pause × Cursor)
  | 0, _, _ => none
  | fuel + 1, acc, c =>
    match c.peek? with
    | none => some (acc.reverse, {}, c)
    | some x =>
      if isBlank x || isBreak x then some (acc.reverse, {}, c)
      else if q == '\x27' && x == q && c.peekAt? 1 == some q then
        quotedRun q fuel (q :: acc) (c.skip 2)
      else if x == q then some (acc.reverse, {}, c)
      else if q == '\x22' && x == '\\' then
        if (c.peekAt? 1).any isBreak then some (acc.reverse, { broken := true }, c.next.takeBreak.2)
        else
          match escape? c.next with
          | some (y, c) => quotedRun q fuel (y :: acc) c
          | none => none
      else quotedRun q fuel (x :: acc) c.next

def quotedFrom (q : Char) : Nat → List Char → Cursor → Option (List Char × Cursor)
  | 0, _, _ => none
  | fuel + 1, acc, c =>
    if c.isDocumentMark || c.atEnd then none
    else
      match quotedRun q (c.rest.length + 1) [] c with
      | none => none
      | some (run, p, c) =>
        if c.is q then some (acc ++ run, c.next)
        else
          match pauseFrom none c.rest.length p c with
          | none => none
          | some (p, c) => quotedFrom q fuel (acc ++ run ++ p.text) c

/-- A text in quotes. -/
def quoted (q : Char) (c : Cursor) : Option (String × Cursor) :=
  (quotedFrom q (c.rest.length + 1) [] c.next).map fun (cs, c) => (.ofList cs, c)

/-! ## Blocks -/

/-- What becomes of the line breaks at the end of a block. -/
inductive Chomp where
  | clip
  | strip
  | keep
deriving DecidableEq

def chomp? (c : Cursor) : Option Chomp :=
  if c.is '-' then some .strip else if c.is '+' then some .keep else none

/-- The number of blanks that a block is indented by, if it is said. Zero is not allowed. -/
def increment? (c : Cursor) : Option (Option Nat) :=
  match c.peek? with
  | some x =>
    if x == '0' then none
    else if Decimal.isDigit x then some (some (x.toNat - 48))
    else some none
  | none => some none

/-- The signs behind the sign of a block, in either order. -/
def blockSigns? (c : Cursor) : Option (Chomp × Option Nat × Cursor) :=
  match chomp? c with
  | some ch => do
    let c := c.next
    match ← increment? c with
    | some n => some (ch, some n, c.next)
    | none => some (ch, none, c)
  | none => do
    match ← increment? c with
    | some n =>
      let c := c.next
      match chomp? c with
      | some ch => some (ch, some n, c.next)
      | none => some (.clip, some n, c)
    | none => some (.clip, none, c)

/-- Reads empty lines and the indentation of the line after them. As long as no indentation is
known, the deepest one counts. A tab must not stand in the indentation. -/
def blockBreaks (known : Option Nat) :
    Nat → Nat → List Char → Cursor → Option (Nat × List Char × Cursor)
  | 0, _, _, _ => none
  | fuel + 1, deepest, acc, c =>
    let blanks := (c.rest.takeWhile (· == ' ')).length
    let c := c.skip (match known with
      | some n => min blanks (n - c.column)
      | none => blanks)
    let deepest := max deepest c.column
    if (match known with | some n => decide (c.column < n) | none => true) && c.is '\t' then none
    else if c.sees isBreak then
      let (b, c) := c.takeBreak
      blockBreaks known fuel deepest (acc ++ b) c
    else some (deepest, acc, c)

/-- The lines of a block: `first` is the break before the next line, `further` the empty lines. -/
def blockLines (isLiteral : Bool) (indent : Nat) :
    Nat → List Char → (first further : List Char) → (blankBefore : Bool) → Cursor →
      Option (List Char × List Char × List Char × Cursor)
  | 0, _, _, _, _, _ => none
  | fuel + 1, acc, first, further, blankBefore, c =>
    if c.column != indent || c.atEnd then some (acc, first, further, c)
    else
      let blank := c.sees isBlank
      let joint :=
        if !isLiteral && first == ['\n'] && !blankBefore && !blank then
          (if further.isEmpty then [' '] else [])
        else first
      let line := c.rest.takeWhile fun x => !isBreak x
      let (b, c) := (c.skip line.length).takeBreak
      match blockBreaks (some indent) (c.rest.length + 1) 0 [] c with
      | none => none
      | some (_, breaks, c) =>
        blockLines isLiteral indent fuel (acc ++ joint ++ further ++ line) b breaks blank c

/-- A block of lines, deeper than the given indentation. -/
def block (isLiteral : Bool) (outer : Int) (c : Cursor) : Option (String × Cursor) := do
  let (ch, n, c) ← blockSigns? c.next
  let c := c.skipWhile isBlank
  let c := if c.is '#' then c.skipLineRest else c
  if !(c.atEnd || c.sees isBreak) then none
  else
    let (_, c) := c.takeBreak
    let known := n.map fun n => if 0 ≤ outer then outer.toNat + n else n
    let (deepest, breaks, c) ← blockBreaks known (c.rest.length + 1) 0 [] c
    let indent := known.getD (max deepest (max (outer + 1).toNat 1))
    let (cs, first, further, c) ←
      blockLines isLiteral indent (c.rest.length + 1) [] [] breaks false c
    let tail := match ch with
      | .strip => []
      | .clip => first
      | .keep => first ++ further
    some (.ofList (cs ++ tail), c)

end UiRunner.Yaml
