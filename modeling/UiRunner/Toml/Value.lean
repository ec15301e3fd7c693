import UiRunner.Decimal.Binary64

/-!
# TOML values

What may stand behind an equals sign, and the tables that a document is made of.
-/
namespace UiRunner

open Decimal

inductive Toml where
  | str (s : String)
  | int (i : Int)
  | float (x : Binary64)
  | bool (b : Bool)
  /-- A date, a time or both, as written. -/
  | date (text : String)
  | arr (items : List Toml)
  | table (fields : List (String × Toml))
deriving Repr, Inhabited

namespace Toml

/-- How a table came to be. -/
inductive Origin where
  /-- A header names it. -/
  | header
  /-- It lies on the way to a table that a header names. -/
  | implied
  /-- It lies on the way of a dotted key. -/
  | dotted
deriving DecidableEq, Repr

/-- What a name stands for while a document is read. -/
inductive Node where
  /-- A value; it cannot be added to. -/
  | value (v : Toml)
  | table (origin : Origin) (fields : List (String × Node))
  /-- Tables under one name, the last one first. -/
  | tables (all : List (List (String × Node)))
deriving Inhabited

abbrev Nodes := List (String × Node)

namespace Node

mutual

/-- The finished value. -/
def toValue : Node → Toml
  | .value v => v
  | .table _ fields => .table (fieldValues fields)
  | .tables all => .arr (tableValues all).reverse

def fieldValues : List (String × Node) → List (String × Toml)
  | [] => []
  | (name, n) :: rest => (name, n.toValue) :: fieldValues rest

def tableValues : List (List (String × Node)) → List Toml
  | [] => []
  | fields :: rest => .table (fieldValues fields) :: tableValues rest

end

end Node

/-- A table with its origin. -/
structure Table where
  origin : Origin := .header
  fields : Nodes := []

namespace Table

def set (t : Table) (name : String) (n : Node) : Table :=
  if t.fields.any (·.1 == name) then
    { t with fields := t.fields.map fun e => if e.1 == name then (name, n) else e }
  else { t with fields := t.fields ++ [(name, n)] }

def node (t : Table) : Node := .table t.origin t.fields

/-- Goes down to a table below this one and changes it. What is missing on the way is made; of
tables under one name the last one counts. A dotted key cannot go through a table that a header
names. -/
def descend (origin : Origin) (change : Table → Option Table) : List String → Table → Option Table
  | [], t => change t
  | name :: rest, t =>
    match t.fields.lookup name with
    | none => (descend origin change rest ⟨origin, []⟩).map fun c => t.set name c.node
    | some (.value _) => none
    | some (.table o fields) =>
      if origin = .dotted ∧ o = .header then none
      else (descend origin change rest ⟨o, fields⟩).map fun c => t.set name c.node
    | some (.tables (last :: others)) =>
      (descend origin change rest ⟨.header, last⟩).map fun c =>
        t.set name (.tables (c.fields :: others))
    | some (.tables []) => none

/-- Opens the table that a header names. A table is opened once. -/
def open? (path : List String) (name : String) (t : Table) : Option Table :=
  descend .implied (fun parent =>
    match parent.fields.lookup name with
    | none => some (parent.set name (.table .header []))
    | some (.table .implied fields) => some (parent.set name (.table .header fields))
    | some _ => none) path t

/-- Opens one more table under a name. -/
def append? (path : List String) (name : String) (t : Table) : Option Table :=
  descend .implied (fun parent =>
    match parent.fields.lookup name with
    | none => some (parent.set name (.tables [[]]))
    | some (.tables all) => some (parent.set name (.tables ([] :: all)))
    | some _ => none) path t

/-- Adds a value under a dotted key. A name is given a value once, and a dotted key adds only to
tables that dotted keys made. -/
def add? (path : List String) (name : String) (v : Toml) (t : Table) : Option Table :=
  descend .dotted (fun target =>
    if !path.isEmpty && target.origin != .dotted then none
    else if target.fields.any (·.1 == name) then none
    else some (target.set name (.value v))) path t

/-- Adds below the table that was opened last. -/
def addWithin? (opened path : List String) (name : String) (v : Toml) (t : Table) : Option Table :=
  descend .implied (add? path name v) opened t

end Table

end Toml

end UiRunner
