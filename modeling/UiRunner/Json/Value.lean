import UiRunner.Decimal.Numeral

/-!
# JSON values

The values of step parameters, capabilities and replies. The fields of an object stand in the
order of their names, each name once; `insert` keeps them so, and a later value replaces an earlier
one.
-/
namespace UiRunner

open Decimal

/-- A number is whole or a binary64; a reader makes whole ones only within 64 bits. -/
inductive Json.Number where
  | int (i : Int)
  | float (x : Binary64)
deriving DecidableEq, Repr

inductive Json where
  | null
  | bool (b : Bool)
  | num (n : Json.Number)
  | str (s : String)
  | arr (items : List Json)
  | obj (fields : List (String × Json))
deriving Repr, Inhabited

namespace Json

/-- The fields of an object. -/
abbrev Fields := List (String × Json)

def Fields.get? (fields : Fields) (name : String) : Option Json := List.lookup name fields

def Fields.insert (fields : Fields) (name : String) (value : Json) : Fields :=
  match fields with
  | [] => [(name, value)]
  | (n, v) :: rest =>
    if name < n then (name, value) :: (n, v) :: rest
    else if name = n then (name, value) :: rest
    else (n, v) :: Fields.insert rest name value

def Fields.ofList (entries : List (String × Json)) : Fields :=
  entries.foldl (fun fields e => fields.insert e.1 e.2) []

/-- Each name stands before all later ones. -/
def Fields.Sorted (fields : Fields) : Prop := fields.Pairwise (·.1 < ·.1)

def int (i : Int) : Json := .num (.int i)

def nat (n : Nat) : Json := .num (.int n)

/-- An object from fields in any order. -/
def ofFields (entries : List (String × Json)) : Json := .obj (Fields.ofList entries)

def field? (name : String) : Json → Option Json
  | .obj fs => Fields.get? fs name
  | _ => none

def str? : Json → Option String
  | .str s => some s
  | _ => none

def bool? : Json → Option Bool
  | .bool b => some b
  | _ => none

def isNull : Json → Bool
  | .null => true
  | _ => false

/-- The fields of an object; any other value has none. -/
def fields : Json → Fields
  | .obj fs => fs
  | _ => []

namespace Number

def toBinary64 : Number → Binary64
  | .int i => .ofInt i
  | .float x => x

/-- The number as a whole one within 64 bits with sign, if it is written as one. -/
def asInt64? : Number → Option Int
  | .int i => if -Int.pow 2 63 ≤ i ∧ i < Int.pow 2 63 then some i else none
  | .float _ => none

def text : Number → String
  | .int i => intText i
  | .float x => if x.isFinite then x.scientific else "null"

end Number

@[simp] theorem Fields.get?_nil (name : String) : Fields.get? [] name = none := rfl

theorem Fields.get?_cons (n name : String) (v : Json) (rest : Fields) :
    Fields.get? ((n, v) :: rest) name = if name = n then some v else rest.get? name := by
  by_cases h : name = n <;> simp [get?, List.lookup_cons, h, beq_eq_false_iff_ne.mpr]

/-- Looking up after `insert` finds the inserted value under its name and the old one elsewhere. -/
theorem Fields.get?_insert (fields : Fields) (name other : String) (value : Json) :
    (fields.insert name value).get? other =
      if other = name then some value else fields.get? other := by
  induction fields with
  | nil => simp [insert, get?_cons]
  | cons e rest ih =>
    obtain ⟨n, v⟩ := e
    simp only [insert]
    split
    · simp [get?_cons]
    · split
      · rename_i h
        subst h
        by_cases h : other = name <;> simp [get?_cons, h]
      · rename_i h
        by_cases hn : other = n
        · have : other ≠ name := fun h' => h (h'.symm.trans hn)
          simp [get?_cons, hn, hn ▸ this]
        · simp [get?_cons, hn, ih]

end Json

end UiRunner
