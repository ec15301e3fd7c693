import UiRunner.Json.Value
import UiRunner.Yaml.Node

/-!
# Values of YAML nodes

What a node means where any value is welcome. A text without quotes can be null, a truth value or
a number; a standard tag decides what a text is.
-/
namespace UiRunner.Yaml

open Decimal

def isNullWord (s : String) : Bool := s ∈ ["null", "Null", "NULL", "~"]

def boolWord? (s : String) : Option Bool :=
  if s ∈ ["true", "True", "TRUE"] then some true
  else if s ∈ ["false", "False", "FALSE"] then some false
  else none

/-- Digits with a zero before them, which are a text and not a number. -/
def isPadded (cs : List Char) : Bool :=
  let (_, ds) := splitSign cs
  ds.length > 1 && ds.head? == some '0' && ds.all isDigit

def digitsIn? (base : Nat) (cs : List Char) : Option Nat :=
  if cs.isEmpty then none
  else cs.foldlM (fun n c => (Bytes.hexValue? c.toLower).bind fun d =>
    if d < base then some (n * base + d) else none) 0

/-- A whole number in decimal, or in another base after a zero and a letter. -/
def whole? (cs : List Char) : Option Int :=
  let (negative, body) := splitSign cs
  let n? := match body with
    | '0' :: 'x' :: ds => digitsIn? 16 ds
    | '0' :: 'o' :: ds => digitsIn? 8 ds
    | '0' :: 'b' :: ds => digitsIn? 2 ds
    | ds => if isPadded cs then none else digitsIn? 10 ds
  n?.map fun n => if negative then -(n : Int) else n

/-- What becomes of a number of a given size. -/
inductive Whole where
  | fits (i : Int)
  /-- It has more than 64 bits but not more than 128. -/
  | tooLong
  | none
deriving DecidableEq

def Whole.ofChars (cs : List Char) : Whole :=
  match whole? cs with
  | some i =>
    if -Int.pow 2 63 ≤ i && i < Int.pow 2 64 then .fits i
    else if -Int.pow 2 127 ≤ i && i < Int.pow 2 128 then .tooLong
    else .none
  | Option.none => .none

/-- A number that need not be finite. -/
inductive Real where
  | finite (x : Binary64)
  | special

def real? (s : String) : Option Real :=
  if s ∈ [".inf", ".Inf", ".INF", "+.inf", "+.Inf", "+.INF", "-.inf", "-.Inf", "-.INF", ".nan",
      ".NaN", ".NAN"] then some .special
  else
    let body := match s.toList with
      | '+' :: rest => if rest.head?.any (fun c => c == '+' || c == '-') then [] else rest
      | cs => cs
    match readBinary64? body with
    | some x => if x.isFinite then some (.finite x) else none
    | none => none

/-- A number as JSON; what is not finite becomes null. -/
def Real.json : Real → Json
  | .finite x => .num (.float x)
  | .special => .null

/-- The value of a text without quotes. -/
def plainValue? (s : String) : Option Json :=
  if s.isEmpty || isNullWord s then some .null
  else
    match boolWord? s with
    | some b => some (.bool b)
    | none =>
      match Whole.ofChars s.toList with
      | .fits i => some (.int i)
      | .tooLong => none
      | .none =>
        if isPadded s.toList then some (.str s)
        else
          match real? s with
          | some x => some x.json
          | none => some (.str s)

def standardTag (name : String) : String := "tag:yaml.org,2002:" ++ name

def taggedValue? (tag s : String) : Option Json :=
  if tag.startsWith "!" then none
  else if tag = standardTag "bool" then (boolWord? s).map .bool
  else if tag = standardTag "int" then
    match Whole.ofChars s.toList with
    | .fits i => some (.int i)
    | _ => none
  else if tag = standardTag "float" then (real? s).map Real.json
  else if tag = standardTag "null" then if isNullWord s then some .null else none
  else some (.str s)

def scalarValue? (s : String) (plain : Bool) (tag : Option String) : Option Json :=
  match tag with
  | some t => taggedValue? t s
  | none => if plain then plainValue? s else some (.str s)

/-- A tag of the user's own makes a value of a kind that nobody knows. -/
def isPrivate (tag : Option String) : Bool := tag.any (·.startsWith "!")

/-- The text of a scalar, whatever it may mean elsewhere. -/
def text? : Yaml → Option String
  | .scalar s _ _ => some s
  | _ => none

/-- Brackets and blocks that may be open at once. -/
def maxDepth : Nat := 128

mutual

/-- The value, with room for so many levels. Keys are texts. -/
def valueAt? (room : Nat) : Yaml → Option Json
  | .scalar s plain tag => scalarValue? s plain tag
  | .seq tag items =>
    if room = 0 || isPrivate tag then none else (itemsAt? (room - 1) items).map .arr
  | .map tag entries =>
    if room = 0 || isPrivate tag then none else (entriesAt? (room - 1) entries).map Json.ofFields
  | .endless => none

def itemsAt? (room : Nat) : List Yaml → Option (List Json)
  | [] => some []
  | y :: ys => do return (← valueAt? room y) :: (← itemsAt? room ys)

def entriesAt? (room : Nat) : List (Yaml × Yaml) → Option (List (String × Json))
  | [] => some []
  | (k, v) :: rest => do return (← text? k, ← valueAt? room v) :: (← entriesAt? room rest)

end

/-- The entries of a mapping; nothing written is an empty one. -/
def entries? : Yaml → Option (List (Yaml × Yaml))
  | .map _ entries => some entries
  | .scalar s plain _ => if s.isEmpty && plain then some [] else none
  | _ => none

def items? : Yaml → Option (List Yaml)
  | .seq _ items => some items
  | .scalar s plain _ => if s.isEmpty && plain then some [] else none
  | _ => none

/-- A text that may be missing; the outer `none` is an error. -/
def optionalText? : Yaml → Option (Option String)
  | .scalar s plain tag =>
    if !plain then some (some s)
    else
      match tag with
      | some t =>
        if t = standardTag "null" then (if isNullWord s then some none else none) else some (some s)
      | none => if s.isEmpty || isNullWord s then some none else some (some s)
  | _ => none

end UiRunner.Yaml
