import UiRunner.Yaml.Token

/-!
# Nodes

A YAML document as a tree of scalars, sequences and mappings. An alias stands for the node that its
anchor marks. So that a short text cannot stand for a huge tree, aliases are followed no more than a
hundred times for each thing that is written.
-/
namespace UiRunner

inductive Yaml where
  | scalar (text : String) (plain : Bool) (tag : Option String)
  | seq (tag : Option String) (items : List Yaml)
  | map (tag : Option String) (entries : List (Yaml × Yaml))
  /-- An alias inside the node that it stands for. -/
  | endless
deriving Inhabited

namespace Yaml

/-- A node that an anchor marks. -/
structure Marked where
  node : Yaml
  /-- How often an alias is followed when it is read through. -/
  jumps : Nat

/-- How many tokens are left, and what they may refer to. -/
structure Progress where
  tokens : List Token
  /-- What tag handles stand for. -/
  handles : List (String × String) := []
  /-- The node that an anchor marks, by number. -/
  anchors : List (String × Nat) := []
  finished : List (Nat × Marked) := []
  count : Nat := 0
  /-- Scalars, aliases, and beginnings and ends of sequences and mappings. -/
  events : Nat := 0
  /-- How often an alias is followed when all of it is read through. -/
  jumps : Nat := 0

abbrev Parse := StateT Progress Option

namespace Parse

def peek : Parse (Option Token) := do return (← get).tokens.head?

def advance : Parse Unit := modify fun p => { p with tokens := p.tokens.tail }

/-- Goes over a token that must stand here. -/
def expect (t : Token) : Parse Unit := do
  if (← peek) == some t then advance else failure

def count (events : Nat) : Parse Unit := modify fun p => { p with events := p.events + events }

/-- What stands where nothing is written. -/
def nothing (tag : Option String) : Parse Yaml := do
  count 1
  return .scalar "" true tag

/-- Whether one of these tokens stands here. -/
def sees (ts : List Token) : Parse Bool := do
  match ← peek with
  | some t => return ts.contains t
  | none => return false

/-- The full name of a tag. -/
def resolve (handle suffix : String) : Parse String := do
  if handle.isEmpty then return suffix
  else
    match (← get).handles.lookup handle with
    | some start => return start ++ suffix
    | none => failure

/-- An anchor and a tag, in either order. -/
def properties : Parse (Option String × Option String) := do
  match ← peek with
  | some (.anchor a) =>
    advance
    match ← peek with
    | some (.tag h s) => advance; return (some a, some (← resolve h s))
    | _ => return (some a, none)
  | some (.tag h s) =>
    advance
    match ← peek with
    | some (.anchor a) => advance; return (some a, some (← resolve h s))
    | _ => return (none, some (← resolve h s))
  | _ => return (none, none)

/-- The node that a name stands for. -/
def referent (name : String) : Parse Yaml := do
  count 1
  let p ← get
  match p.anchors.lookup name with
  | some n =>
    let target := (p.finished.lookup n).getD ⟨.endless, 0⟩
    modify fun p => { p with jumps := p.jumps + 1 + target.jumps }
    return target.node
  | none => failure

/-- Marks the node that begins here. -/
def mark (anchor : Option String) : Parse Nat := do
  let n := (← get).count
  modify fun p => { p with
    count := n + 1
    anchors := match anchor with
      | some a => (a, n) :: p.anchors
      | none => p.anchors }
  return n

/-- The node is complete; so often an alias had been followed before it began. -/
def finish (anchor : Option String) (n jumps : Nat) (y : Yaml) : Parse Yaml := do
  if anchor.isSome then modify fun p => { p with
    finished := (n, ⟨y, p.jumps - jumps⟩) :: p.finished }
  return y

mutual

/-- A node. Only a node of a block may be a block, and only one of a mapping a sequence that is not
indented. -/
def node : Nat → (block unindented : Bool) → Parse Yaml
  | 0, _, _ => failure
  | fuel + 1, block, unindented => do
    match ← peek with
    | some (.reference name) => advance; referent name
    | _ =>
      let (anchor, tag) ← properties
      let n ← mark anchor
      let jumps := (← get).jumps
      finish anchor n jumps (← content fuel block unindented tag (anchor.isSome || tag.isSome))

/-- What stands behind anchor and tag; behind them it may be nothing. -/
def content : Nat → (block unindented : Bool) → Option String → Bool → Parse Yaml
  | 0, _, _, _, _ => failure
  | fuel + 1, block, unindented, tag, decorated => do
    match ← peek with
    | some (.scalar s plain) => advance; count 1; return .scalar s plain tag
    | some .openBracket => advance; count 2; return .seq tag (← flowItems fuel true)
    | some .openBrace => advance; count 2; return .map tag (← flowEntries fuel true)
    | some .entry =>
      if unindented then
        count 2
        return .seq tag (← unindentedItems fuel)
      else absent tag decorated
    | some .blockSequence =>
      if block then
        advance
        count 2
        return .seq tag (← blockItems fuel)
      else absent tag decorated
    | some .blockMapping =>
      if block then
        advance
        count 2
        return .map tag (← blockEntries fuel)
      else absent tag decorated
    | _ => absent tag decorated
where
  absent (tag : Option String) (decorated : Bool) : Parse Yaml :=
    if decorated then nothing tag else failure

/-- A node, or nothing in front of one of these tokens. -/
def nodeUnless : Nat → (block unindented : Bool) → List Token → Parse Yaml
  | 0, _, _, _ => failure
  | fuel + 1, block, unindented, ends => do
    if ← sees ends then nothing none else node fuel block unindented

def blockItems : Nat → Parse (List Yaml)
  | 0 => failure
  | fuel + 1 => do
    match ← peek with
    | some .entry =>
      advance
      let y ← nodeUnless fuel true false [.entry, .blockEnd]
      return y :: (← blockItems fuel)
    | some .blockEnd => advance; return []
    | _ => failure

def unindentedItems : Nat → Parse (List Yaml)
  | 0 => failure
  | fuel + 1 => do
    match ← peek with
    | some .entry =>
      advance
      let y ← nodeUnless fuel true false [.entry, .key, .value, .blockEnd]
      return y :: (← unindentedItems fuel)
    | _ => return []

def blockEntries : Nat → Parse (List (Yaml × Yaml))
  | 0 => failure
  | fuel + 1 => do
    match ← peek with
    | some .key =>
      advance
      let k ← nodeUnless fuel true true [.key, .value, .blockEnd]
      let v ← valueOf fuel true [.key, .value, .blockEnd]
      return (k, v) :: (← blockEntries fuel)
    | some .blockEnd => advance; return []
    | _ => failure

/-- What stands behind a colon, if there is one. -/
def valueOf : Nat → (block : Bool) → List Token → Parse Yaml
  | 0, _, _ => failure
  | fuel + 1, block, ends => do
    match ← peek with
    | some .value => advance; nodeUnless fuel block block ends
    | _ => nothing none

def flowItems : Nat → (first : Bool) → Parse (List Yaml)
  | 0, _ => failure
  | fuel + 1, first => do
    if ← sees [.closeBracket] then
      advance
      return []
    else
      if !first then expect .comma
      if ← sees [.closeBracket] then
        advance
        return []
      else
        let y ← flowItem fuel
        return y :: (← flowItems fuel false)

/-- A node in brackets, or a mapping of one key. -/
def flowItem : Nat → Parse Yaml
  | 0 => failure
  | fuel + 1 => do
    if ← sees [.key] then
      advance
      count 2
      if ← sees [.value, .comma, .closeBracket] then
        advance
        let k ← nothing none
        let v ← valueOf fuel false [.comma, .closeBracket]
        return .map none [(k, v)]
      else
        let k ← node fuel false false
        let v ← valueOf fuel false [.comma, .closeBracket]
        return .map none [(k, v)]
    else node fuel false false

def flowEntries : Nat → (first : Bool) → Parse (List (Yaml × Yaml))
  | 0, _ => failure
  | fuel + 1, first => do
    if ← sees [.closeBrace] then
      advance
      return []
    else
      if !first then expect .comma
      if ← sees [.closeBrace] then
        advance
        return []
      else
        let e ← flowEntry fuel
        return e :: (← flowEntries fuel false)

/-- A key with its value; one without a sign for keys has no value. -/
def flowEntry : Nat → Parse (Yaml × Yaml)
  | 0 => failure
  | fuel + 1 => do
    if ← sees [.key] then
      advance
      let k ← nodeUnless fuel false false [.value, .comma, .closeBrace]
      let v ← valueOf fuel false [.comma, .closeBrace]
      return (k, v)
    else return (← node fuel false false, ← nothing none)

end

/-! ## Documents -/

def standardHandles : List (String × String) := [("!", "!"), ("!!", "tag:yaml.org,2002:")]

/-- The lines before a document. A version is given once, and so is each handle. -/
def directives : Nat → (versioned : Bool) → List String → Parse Unit
  | 0, _, _ => failure
  | fuel + 1, versioned, seen => do
    match ← peek with
    | some (.versionLine major minor) =>
      if versioned || major != 1 || !(minor == 1 || minor == 2) then failure
      else
        advance
        directives fuel true seen
    | some (.tagLine h start) =>
      if seen.contains h then failure
      else
        advance
        modify fun p => { p with handles := (h, start) :: p.handles }
        directives fuel versioned (h :: seen)
    | _ => return ()

def skipEnds : Nat → Parse Unit
  | 0 => return ()
  | fuel + 1 => do
    if ← sees [.documentEnd] then
      advance
      skipEnds fuel

/-- Whether a line before a document, a mark between documents or the end stands here. -/
def atBorder : Parse Bool := do
  match ← peek with
  | none | some (.versionLine ..) | some (.tagLine ..) | some .documentStart => return true
  | _ => return false

/-- How often aliases may be followed for each event. -/
def maxJumps : Nat := 100

/-- The next document, if there is one. Only the first can do without a mark at its beginning. -/
def document (fuel : Nat) (first : Bool) : Parse (Option Yaml) := do
  modify fun p => { tokens := p.tokens, handles := standardHandles }
  if !first then skipEnds fuel
  if (← peek).isNone then return none
  else
    let y ← if first && !(← atBorder) then node fuel true false
      else do
        directives fuel false []
        expect .documentStart
        if (← atBorder) || (← sees [.documentEnd]) then nothing none
        else node fuel true false
    if ← sees [.documentEnd] then advance
    let p ← get
    if p.jumps > maxJumps * p.events then failure else return some y

/-- The only document of a text. -/
def single (fuel : Nat) : Parse Yaml := do
  match ← document fuel true with
  | none => failure
  | some y => if (← document fuel false).isSome then failure else return y

end Parse

/-- Reads a text that holds one document. -/
def read? (s : String) : Option Yaml := do
  let ts ← tokens? s
  ((Parse.single (4 * ts.length + 8)).run { tokens := ts }).map (·.1)

end Yaml

end UiRunner
