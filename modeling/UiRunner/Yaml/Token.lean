import UiRunner.Yaml.Scalar

/-!
# Tokens

A YAML text as a sequence of tokens. Indentation becomes tokens of its own, for the beginning and
the end of a block. That something is a key is known only when its colon comes, so a key is marked
afterwards in front of its first token.
-/
namespace UiRunner.Yaml

inductive Token where
  | versionLine (major minor : Nat)
  | tagLine (handle start : String)
  | documentStart
  | documentEnd
  | blockSequence
  | blockMapping
  | blockEnd
  | openBracket
  | closeBracket
  | openBrace
  | closeBrace
  | comma
  | entry
  | key
  | value
  | reference (name : String)
  | anchor (name : String)
  | tag (handle suffix : String)
  | scalar (text : String) (plain : Bool)
deriving DecidableEq, Repr

/-- A place where a key may have begun. -/
structure Candidate where
  /-- The number of tokens before it. -/
  place : Nat
  line : Nat
  column : Nat
  index : Nat
  /-- It can be nothing else than a key. -/
  required : Bool
deriving Repr

/-- How far a text was read. -/
structure Lexer where
  cursor : Cursor
  tokens : Array Token := #[]
  /-- The column of the innermost block, or -1 outside of all. -/
  indent : Int := -1
  outer : List Int := []
  /-- Whether a key may begin here. -/
  keyAllowed : Bool := true
  /-- The candidate outside of all brackets, or inside the innermost ones. -/
  candidate : Option Candidate := none
  /-- The candidates outside of the innermost brackets; as many as there are brackets. -/
  outerCandidates : List (Option Candidate) := []

namespace Lexer

def inFlow (l : Lexer) : Bool := !l.outerCandidates.isEmpty

def emit (l : Lexer) (t : Token) : Lexer := { l with tokens := l.tokens.push t }

def insertAt (l : Lexer) (place : Nat) (t : Token) : Lexer :=
  { l with tokens := (l.tokens.toList.insertIdx place t).toArray }

def skip (l : Lexer) (n : Nat) : Lexer := { l with cursor := l.cursor.skip n }

def next (l : Lexer) : Lexer := l.skip 1

/-- A candidate must be followed by its colon on the same line and not too far away. -/
def longestKey : Nat := 1024

def isStale (c : Cursor) (k : Candidate) : Bool := k.line < c.line || k.index + longestKey < c.index

/-- Forgets a stale candidate; nothing when it is required. -/
def freshen? (c : Cursor) (k : Option Candidate) : Option (Option Candidate) :=
  match k with
  | some k => if isStale c k then (if k.required then none else some none) else some (some k)
  | none => some none

def dropStale? (l : Lexer) : Option Lexer := do
  let candidate ← freshen? l.cursor l.candidate
  let outerCandidates ← l.outerCandidates.mapM (freshen? l.cursor)
  some { l with candidate, outerCandidates }

/-- Forgets the candidate; nothing when it is required. -/
def dropCandidate? (l : Lexer) : Option Lexer :=
  if l.candidate.any (·.required) then none else some { l with candidate := none }

/-- A key may have begun here. -/
def saveCandidate? (l : Lexer) : Option Lexer :=
  let c := l.cursor
  if l.keyAllowed then do
    let l' ← l.dropCandidate?
    let required := !l.inFlow && l.indent == (c.column : Int)
    some { l' with candidate := some ⟨l.tokens.size, c.line, c.column, c.index, required⟩ }
  else some l

/-- Begins a block at a column, unless one is open there. -/
def roll (l : Lexer) (column : Nat) (place : Nat) (t : Token) : Lexer :=
  if !l.inFlow && l.indent < (column : Int) then
    { l.insertAt place t with outer := l.indent :: l.outer, indent := column }
  else l

/-- Ends the blocks that are open behind a column. -/
def unrollFrom (column : Int) : List Int → Lexer → Lexer
  | [], l => l
  | i :: rest, l =>
    if column < l.indent then
      unrollFrom column rest { l.emit .blockEnd with indent := i, outer := rest }
    else l

def unroll (l : Lexer) (column : Int) : Lexer :=
  if l.inFlow then l else unrollFrom column l.outer l

/-! ## From token to token -/

/-- Skips blanks, comments and line breaks. Tabs may separate only where no key may begin. -/
def skipGaps : Nat → Lexer → Lexer
  | 0, l => l
  | fuel + 1, l =>
    let tabs := l.inFlow || !l.keyAllowed
    let c := l.cursor.skipWhile fun x => x == ' ' || (tabs && x == '\t')
    let c := if c.is '#' then c.skipLineRest else c
    if c.sees isBreak then
      skipGaps fuel { l with cursor := c.takeBreak.2, keyAllowed := l.keyAllowed || !l.inFlow }
    else { l with cursor := c }

/-- The end of all blocks, after which no key may begin. -/
def leaveBlocks? (l : Lexer) : Option Lexer := do
  let l ← (l.unroll (-1)).dropCandidate?
  some { l with keyAllowed := false }

def documentMark? (l : Lexer) : Option Lexer := do
  let t : Token := if l.cursor.is '-' then .documentStart else .documentEnd
  let l ← l.leaveBlocks?
  some ((l.emit t).skip 3)

def openFlow? (l : Lexer) (t : Token) : Option Lexer := do
  let l ← l.saveCandidate?
  let l := { l with outerCandidates := l.candidate :: l.outerCandidates, candidate := none
                    keyAllowed := true }
  some (l.emit t).next

def closeFlow? (l : Lexer) (t : Token) : Option Lexer := do
  let l ← l.dropCandidate?
  let l := match l.outerCandidates with
    | k :: rest => { l with candidate := k, outerCandidates := rest }
    | [] => l
  some ({ l with keyAllowed := false }.emit t).next

def comma? (l : Lexer) : Option Lexer := do
  let l ← l.dropCandidate?
  some ({ l with keyAllowed := true }.emit .comma).next

/-- A dash or a question mark that begins an entry of a block. -/
def blockSign? (l : Lexer) (opening sign : Token) (keyAfter : Bool) : Option Lexer :=
  if !l.inFlow && !l.keyAllowed then none
  else do
    let l := l.roll l.cursor.column l.tokens.size opening
    let l ← l.dropCandidate?
    some ({ l with keyAllowed := keyAfter }.emit sign).next

/-- A colon. The candidate, if there is one, has been a key. -/
def value? (l : Lexer) : Option Lexer :=
  match l.candidate with
  | some k =>
    let l := (l.insertAt k.place .key).roll k.column k.place .blockMapping
    some ({ l with candidate := none, keyAllowed := false }.emit .value).next
  | none =>
    if !l.inFlow && !l.keyAllowed then none
    else
      let l := l.roll l.cursor.column l.tokens.size .blockMapping
      some ({ l with keyAllowed := !l.inFlow }.emit .value).next

/-- The name of an anchor or an alias. -/
def anchor? (l : Lexer) (t : String → Token) : Option Lexer := do
  let l ← l.saveCandidate?
  let c := l.cursor.next
  let name := c.rest.takeWhile isWord
  let c := c.skip name.length
  let ends (x : Char) := x ∈ ['?', ':', ',', ']', '\x7d', '%', '@', '\x60']
  if name.isEmpty || !(c.isGap 0 || c.sees fun x => ends x) then none
  else some ({ l with cursor := c, keyAllowed := false }.emit (t (.ofList name)))

/-! ### Tags and directives -/

/-- Characters of a tag. Commas and square brackets may stand only in angle brackets. -/
def isTagChar (angled : Bool) (c : Char) : Bool :=
  isWord c ||
    c ∈ [';', '/', '?', ':', '@', '&', '=', '+', '$', '.', '!', '~', '*', '\x27', '(', ')', '%'] ||
    (angled && c ∈ [',', '[', ']'])

/-- Decodes the percent signs of a tag. -/
def tagText? (cs : List Char) : Option String :=
  let rec bytes : List Char → Option Bytes
    | '%' :: a :: b :: rest => do
      let x ← Bytes.hexValue? a.toLower
      let y ← Bytes.hexValue? b.toLower
      (bytes rest).map (UInt8.ofNat (x * 16 + y) :: ·)
    | '%' :: _ => none
    | c :: rest => (bytes rest).map (Bytes.ofText c.toString ++ ·)
    | [] => some []
  (bytes cs).bind Bytes.decode?

/-- A handle: an exclamation mark, and a word with another one behind it. -/
def handle (cs : List Char) : List Char :=
  match cs with
  | '!' :: rest =>
    let word := rest.takeWhile isWord
    if (rest.drop word.length).head? == some '!' then '!' :: word ++ ['!'] else '!' :: word
  | _ => []

/-- The handle and the suffix of a tag, and how many characters they take. -/
def tagParts? (cs : List Char) : Option (String × String × Nat) :=
  match cs with
  | '!' :: '<' :: rest => do
    let body := rest.takeWhile (isTagChar true)
    if body.isEmpty || (rest.drop body.length).head? != some '>' then none
    else some ("", ← tagText? body, body.length + 3)
  | _ =>
    let h := handle cs
    if h.length > 1 && h.getLast? == some '!' then do
      let body := (cs.drop h.length).takeWhile (isTagChar false)
      if body.isEmpty then none else some (.ofList h, ← tagText? body, h.length + body.length)
    else do
      let body := (cs.drop 1).takeWhile (isTagChar false)
      if body.isEmpty then some ("", "!", 1) else some ("!", ← tagText? body, body.length + 1)

def tag? (l : Lexer) : Option Lexer := do
  let l ← l.saveCandidate?
  let (h, suffix, n) ← tagParts? l.cursor.rest
  let l := { l.skip n with keyAllowed := false }
  if l.cursor.isGap 0 || (l.inFlow && l.cursor.is ',') then some (l.emit (.tag h suffix)) else none

def number? (cs : List Char) : Option Nat :=
  if cs.isEmpty || cs.length > 9 || !cs.all Decimal.isDigit then none
  else some (Decimal.digitsValue cs)

def versionLine? (words : List (List Char)) : Option Token :=
  match words with
  | [w] =>
    match w.splitOn '.' with
    | [a, b] => do some (.versionLine (← number? a) (← number? b))
    | _ => none
  | _ => none

def tagLine? (words : List (List Char)) : Option Token :=
  match words with
  | [h, start] =>
    if handle h == h && h.getLast? == some '!' && !start.isEmpty &&
        start.all (isTagChar true) then do
      some (.tagLine (.ofList h) (← tagText? start))
    else none
  | _ => none

/-- A line that begins with a percent sign. -/
def directive? (l : Lexer) : Option Lexer := do
  let l ← l.leaveBlocks?
  let line := l.cursor.rest.takeWhile fun x => !isBreak x
  let words := ((line.drop 1).splitOnP isBlank).filter (!·.isEmpty)
  let words := words.takeWhile fun w => w.head? != some '#'
  let t ← match words with
    | name :: rest =>
      if (line.drop 1).head?.any isBlank then none
      else if name == "YAML".toList then versionLine? rest
      else if name == "TAG".toList then tagLine? rest
      else none
    | [] => none
  some ((l.emit t).skip line.length)

/-! ### Scalars -/

def block? (l : Lexer) (isLiteral : Bool) : Option Lexer := do
  let l ← l.dropCandidate?
  let (s, c) ← block isLiteral l.indent l.cursor
  some ({ l with cursor := c, keyAllowed := true }.emit (.scalar s false))

def quoted? (l : Lexer) (q : Char) : Option Lexer := do
  let l ← l.saveCandidate?
  let (s, c) ← quoted q l.cursor
  some ({ l with cursor := c, keyAllowed := false }.emit (.scalar s false))

def plain? (l : Lexer) : Option Lexer := do
  let l ← l.saveCandidate?
  let (s, broken, c) ← plain l.inFlow (l.indent + 1).toNat l.cursor
  some ({ l with cursor := c, keyAllowed := broken }.emit (.scalar s true))

/-- Signs that no text without quotes begins with. -/
def isSign (c : Char) : Bool :=
  c ∈ ['-', '?', ':', ',', '[', ']', '\x7b', '\x7d', '#', '&', '*', '!', '|', '>', '\x27', '\x22',
    '%', '@', '\x60']

/-- Whether a text without quotes begins here. -/
def beginsPlain (l : Lexer) (x : Char) : Bool :=
  let c := l.cursor
  !(isSign x || isBlank x) || (x == '-' && !(c.peekAt? 1).any isBlank) ||
    (!l.inFlow && (x == '?' || x == ':') && !c.isGap 1)

/-- The token that begins with this character. -/
def next? (l : Lexer) (x : Char) : Option Lexer :=
  let c := l.cursor
  if c.column == 0 && x == '%' then l.directive?
  else if c.isDocumentMark then l.documentMark?
  else if x == '[' then l.openFlow? .openBracket
  else if x == '\x7b' then l.openFlow? .openBrace
  else if x == ']' then l.closeFlow? .closeBracket
  else if x == '\x7d' then l.closeFlow? .closeBrace
  else if x == ',' then l.comma?
  else if x == '-' && c.isGap 1 then l.blockSign? .blockSequence .entry true
  else if x == '?' && (l.inFlow || c.isGap 1) then l.blockSign? .blockMapping .key (!l.inFlow)
  else if x == ':' && (l.inFlow || c.isGap 1) then l.value?
  else if x == '*' then l.anchor? .reference
  else if x == '&' then l.anchor? .anchor
  else if x == '!' then l.tag?
  else if x == '|' && !l.inFlow then l.block? true
  else if x == '>' && !l.inFlow then l.block? false
  else if x == '\x27' || x == '\x22' then l.quoted? x
  else if l.beginsPlain x then l.plain?
  else none

/-- The end of the text. -/
def finish? (l : Lexer) : Option Lexer := (l.unroll (-1)).dropCandidate?

def run : Nat → Lexer → Option Lexer
  | 0, _ => none
  | fuel + 1, l => do
    let l ← (skipGaps (l.cursor.rest.length + 1) l).dropStale?
    let l := l.unroll l.cursor.column
    match l.cursor.peek? with
    | none => l.finish?
    | some x => run fuel (← l.next? x)

end Lexer

/-- The tokens of a text. A mark of the byte order at its beginning does not count. -/
def tokens? (s : String) : Option (List Token) :=
  let cs := match s.toList with
    | '\ufeff' :: rest => rest
    | cs => cs
  if cs.all isPrintable then
    (Lexer.run (cs.length + 2) { cursor := { rest := cs } }).map (·.tokens.toList)
  else none

end UiRunner.Yaml
