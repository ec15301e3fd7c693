import UiRunner.Json.Value

/-!
# Parameters

What an action expects of its parameters (a contract is a list of `Spec`), and the typed values
that a step's parameters become.
-/
namespace UiRunner.Action

open Decimal

/-- The declared type of a parameter. -/
inductive Kind where
  | string
  | integer
  | float
  | boolean
  | list
deriving DecidableEq, Repr

def Kind.name : Kind → String
  | .string => "string"
  | .integer => "integer"
  | .float => "float"
  | .boolean => "boolean"
  | .list => "list"

/-- A typed value of a parameter. -/
inductive Value where
  | str (s : String)
  | int (i : Int)
  | float (x : Binary64)
  | bool (b : Bool)
  | list (items : List Json)
deriving Repr

def Value.kind : Value → Kind
  | .str _ => .string
  | .int _ => .integer
  | .float _ => .float
  | .bool _ => .boolean
  | .list _ => .list

/-- A value that stands in for a parameter that is not given. -/
inductive Default where
  | str (s : String)
  | int (i : Int)
  | float (x : Binary64)
  | bool (b : Bool)
deriving DecidableEq, Repr

namespace Default

def value : Default → Value
  | .str s => .str s
  | .int i => .int i
  | .float x => .float x
  | .bool b => .bool b

def json : Default → Json
  | .str s => .str s
  | .int i => .num (.int i)
  | .float x => .num (.float x)
  | .bool b => .bool b

end Default

/-- One entry of a contract. -/
structure Spec where
  name : String
  kind : Kind
  required : Bool := true
  default : Option Default := none
  description : String := ""
  /-- An older name that is accepted as well. -/
  olderName : Option String := none
deriving DecidableEq, Repr

abbrev Contract := List Spec

namespace Spec

def accepts (spec : Spec) (key : String) : Bool := spec.name == key || spec.olderName == some key

end Spec

/-- The typed parameters of one step, each name once. -/
structure Params where
  entries : List (String × Value) := []
deriving Repr

namespace Params

def get? (ps : Params) (name : String) : Option Value := ps.entries.lookup name

def set (ps : Params) (name : String) (v : Value) : Params :=
  ⟨ps.entries.filter (·.1 != name) ++ [(name, v)]⟩

/-! The accessors fall back to the zero value of their type. -/

def str? (ps : Params) (name : String) : Option String :=
  match ps.get? name with
  | some (.str s) => some s
  | _ => none

def str (ps : Params) (name : String) : String := (ps.str? name).getD ""

def int (ps : Params) (name : String) : Int :=
  match ps.get? name with
  | some (.int i) => i
  | _ => 0

def float (ps : Params) (name : String) : Binary64 :=
  match ps.get? name with
  | some (.float x) => x
  | some (.int i) => .ofInt i
  | _ => .zero false

def bool (ps : Params) (name : String) : Bool :=
  match ps.get? name with
  | some (.bool b) => b
  | _ => false

def list (ps : Params) (name : String) : List Json :=
  match ps.get? name with
  | some (.list items) => items
  | _ => []

theorem get?_set (ps : Params) (name other : String) (v : Value) :
    (ps.set name v).get? other = if other = name then some v else ps.get? other := by
  obtain ⟨entries⟩ := ps
  simp only [get?, set]
  induction entries with
  | nil => by_cases h : other = name <;> simp [List.lookup_cons, h, beq_eq_false_iff_ne.mpr]
  | cons e rest ih =>
    obtain ⟨n, w⟩ := e
    by_cases hn : n = name
    · subst hn
      by_cases h : other = n
      · subst h
        simpa using ih
      · simpa [h, List.lookup_cons, beq_eq_false_iff_ne.mpr h] using ih
    · by_cases h : other = n
      · subst h
        simp [hn]
      · simpa [List.lookup_cons, hn, beq_eq_false_iff_ne.mpr h] using ih

end Params

end UiRunner.Action
