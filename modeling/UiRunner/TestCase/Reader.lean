import UiRunner.Files.Storage
import UiRunner.Json.Reader
import UiRunner.TestCase.Basic
import UiRunner.Yaml.Value

/-!
# Reading test cases

A test case is written in JSON, or in YAML when its file is named so. Every field but the name of
the case has a default, and unknown fields are ignored. In JSON a case or a step may also be a list
of its fields in order.
-/
namespace UiRunner.TestCase

/-- The value of a field that may stand only once; a second one is an error. -/
def once? {α : Type} (name : String) (fields : List (String × α)) : Option (Option α) :=
  match (fields.filter (·.1 == name)).map (·.2) with
  | [] => some none
  | [v] => some (some v)
  | _ => none

/-- Reads a field, or takes its default. -/
def fieldOr {α β : Type} (absent : β) (read : α → Option β) : Option α → Option β
  | none => some absent
  | some v => read v

/-! ## From JSON -/

namespace OfJson

open Json

def text? : Tree → Option String
  | .str s => s
  | _ => none

/-- A text, or null for none. -/
def optionalText? : Tree → Option (Option String)
  | .null => some none
  | .str (some s) => some (some s)
  | _ => none

/-- Parameters are an object; so many levels are already open around it. -/
def params? (around : Nat) : Tree → Option Fields
  | .obj fields => ((Tree.obj fields).valueAt? (maxDepth - around)).map Json.fields
  | _ => none

/-- The names of fields must be texts, also of those that are ignored. -/
def named? (fields : List (Option String × Tree)) : Option (List (String × Tree)) :=
  fields.mapM fun (name, t) => name.map fun n => (n, t)

def step? : Tree → Option Step
  | .obj fields => do
    let fields ← named? fields
    let action ← fieldOr "" text? (← once? "action" fields)
    let params ← fieldOr [] (params? 3) (← once? "params" fields)
    let notes ← fieldOr none optionalText? (← once? "notes" fields)
    some { action, params, notes }
  | .arr items => do
    let action ← fieldOr "" text? items[0]?
    let params ← fieldOr [] (params? 3) items[1]?
    let notes ← fieldOr none optionalText? items[2]?
    if items.length > 3 then none else some { action, params, notes }
  | _ => none

def steps? : Tree → Option (List Step)
  | .arr items => items.mapM step?
  | _ => none

def case? : Tree → Option TestCase
  | .obj fields => do
    let fields ← named? fields
    let name ← (← once? "name" fields).bind text?
    let steps ← fieldOr [] steps? (← once? "steps" fields)
    some { name, steps }
  | .arr items => do
    let name ← items[0]?.bind text?
    let steps ← fieldOr [] steps? items[1]?
    if items.length > 2 then none else some { name, steps }
  | _ => none

end OfJson

def ofJson? (s : String) : Option TestCase := (Json.Tree.read? s).bind OfJson.case?

/-! ## From YAML -/

namespace OfYaml

open Yaml

/-- The names of fields must be texts. -/
def fields? (y : Yaml) : Option (List (String × Yaml)) := do
  (← entries? y).mapM fun (k, v) => (Yaml.text? k).map fun n => (n, v)

def params? (around : Nat) (y : Yaml) : Option Json.Fields := do
  (entriesAt? (maxDepth - around - 1) (← entries? y)).map Json.Fields.ofList

def step? (y : Yaml) : Option Step := do
  let fields ← fields? y
  let action ← fieldOr "" Yaml.text? (← once? "action" fields)
  let params ← fieldOr [] (params? 3) (← once? "params" fields)
  let notes ← fieldOr none Yaml.optionalText? (← once? "notes" fields)
  some { action, params, notes }

def steps? (y : Yaml) : Option (List Step) := do (← items? y).mapM step?

def case? (y : Yaml) : Option TestCase := do
  let fields ← fields? y
  let name ← (← once? "name" fields).bind Yaml.text?
  let steps ← fieldOr [] steps? (← once? "steps" fields)
  some { name, steps }

end OfYaml

def ofYaml? (s : String) : Option TestCase := (Yaml.read? s).bind OfYaml.case?

/-! ## From a file -/

def isYaml (path : Path) : Bool :=
  match path.extension? with
  | some e => e == "yaml" || e == "yml"
  | none => false

def ofText? (path : Path) (s : String) : Option TestCase :=
  if isYaml path then ofYaml? s else ofJson? s

/-- Reads a test case from a file. A case without steps is refused. -/
def load (files : Files.Tree) (path : Path) : Except Error TestCase :=
  match files.readText path with
  | .error e => .error (.fileRead path e.message)
  | .ok s =>
    match ofText? path s with
    | none => .error (.configUnreadable s!"{path} cannot be read")
    | some c =>
      match c.validate with
      | .error e => .error e
      | .ok () => .ok c

end UiRunner.TestCase
