import UiRunner.Action.Parameter
import UiRunner.Json.Writer
import UiRunner.Text.Blank

/-!
# Coercion

A step's parameters are checked against a contract and converted to the declared types. The
answer is the typed parameters, or the first thing that is wrong: the smallest name that the
contract does not know, else the first parameter in contract order that is given twice, cannot be
converted or is missing.
-/
namespace UiRunner.Action

open Decimal

/-- What is wrong with a step's parameters. -/
inductive Mismatch where
  | unexpected (key : String) (accepted : List String)
  | twice (name other : String)
  | unconvertible (name : String) (kind : Kind) (given : Json)
  | missing (name : String)
deriving Repr

/-- A value in an error message. -/
def shown : Json → String
  | .str s => "\"" ++ s ++ "\""
  | .arr _ => "a list"
  | .obj _ => "an object"
  | v => v.compact

def Mismatch.message : Mismatch → String
  | .unexpected key accepted =>
    "unexpected parameter '" ++ key ++ "' (accepted: " ++ ", ".intercalate accepted ++ ")"
  | .twice name other => "parameter '" ++ name ++ "' given twice (also as '" ++ other ++ "')"
  | .unconvertible name kind given =>
    "parameter '" ++ name ++ "' expects " ++ kind.name ++ ", got " ++ shown given
  | .missing name => "missing required parameter '" ++ name ++ "'"

/-- Whole numbers of 64 bits with sign. -/
def inInt64 (i : Int) : Bool := -Int.pow 2 63 ≤ i && i < Int.pow 2 63

def readInt64? (s : String) : Option Int :=
  match readInt? (Text.trimChars s.toList) with
  | some i => if inInt64 i then some i else none
  | none => none

/-- A whole number strictly between -2^63 and 2^63 that a number is or stands for exactly. -/
def wholeNumber? (n : Json.Number) : Option Int :=
  match n.asInt64? with
  | some i => some i
  | none =>
    match n.toBinary64.toInt? with
    | some i => if i.natAbs < Nat.pow 2 63 then some i else none
    | none => none

def readFloat? (s : String) : Option Binary64 :=
  match readBinary64? (Text.trimChars s.toList) with
  | some x => if x.isFinite then some x else none
  | none => none

def readBool? (s : String) : Option Bool :=
  let word := Text.lowerAscii (Text.trim s)
  if word ∈ ["true", "1", "yes", "on"] then some true
  else if word ∈ ["false", "0", "no", "off"] then some false
  else none

/-- The value as one of the declared kind. -/
def convert (kind : Kind) (v : Json) : Option Value :=
  match kind with
  | .string =>
    match v with
    | .str s => some (.str s)
    | .num n => some (.str n.text)
    | .bool b => some (.str (if b then "true" else "false"))
    | _ => none
  | .integer =>
    match v with
    | .num n => (wholeNumber? n).map .int
    | .str s => (readInt64? s).map .int
    | _ => none
  | .float =>
    match v with
    | .num n => some (.float n.toBinary64)
    | .str s => (readFloat? s).map .float
    | _ => none
  | .boolean =>
    match v with
    | .bool b => some (.bool b)
    | .num n =>
      match n.asInt64? with
      | some 0 => some (.bool false)
      | some 1 => some (.bool true)
      | _ => none
    | .str s => (readBool? s).map .bool
    | _ => none
  | .list =>
    match v with
    | .arr items => some (.list items)
    | _ => none

/-- The value given for a parameter under its name or its alias. -/
def given (raw : Json.Fields) (spec : Spec) : Except Mismatch (Option Json) :=
  let aliased := spec.olderName.bind fun a => (raw.get? a).map fun v => (a, v)
  match raw.get? spec.name, aliased with
  | some _, some (a, _) => .error (.twice spec.name a)
  | some v, none => .ok (some v)
  | none, aliased => .ok (aliased.map (·.2))

/-- What a parameter contributes: a null counts as not given. -/
def Spec.take (spec : Spec) (raw : Json.Fields) : Except Mismatch (Option Value) :=
  match given raw spec with
  | .error e => .error e
  | .ok g =>
    match g with
    | none | some .null =>
      if spec.required then .error (.missing spec.name)
      else .ok (spec.default.map Default.value)
    | some v =>
      match convert spec.kind v with
      | some x => .ok (some x)
      | none => .error (.unconvertible spec.name spec.kind v)

/-- Takes the parameters of the contract in order. -/
def takeAll (raw : Json.Fields) : Contract → Params → Except Mismatch Params
  | [], ps => .ok ps
  | spec :: rest, ps =>
    match spec.take raw with
    | .error e => .error e
    | .ok none => takeAll raw rest ps
    | .ok (some v) => takeAll raw rest (ps.set spec.name v)

def Contract.accepts (contract : Contract) (key : String) : Bool := contract.any (·.accepts key)

def coerce (contract : Contract) (raw : Json.Fields) : Except Mismatch Params :=
  match raw.find? fun e => !contract.accepts e.1 with
  | some (key, _) => .error (.unexpected key (contract.map Spec.name))
  | none => takeAll raw contract {}

end UiRunner.Action
