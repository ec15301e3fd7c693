import UiRunner.Action.Behavior
import UiRunner.Text.Quoted

/-!
# Registry

Actions are found by name or by alias. A registry keeps what each name leads to, and the order in
which definitions were accepted. It refuses a definition when one of its names is taken, before it
enters any of them, so that every name leads to one definition.
-/
namespace UiRunner.Action

structure Definition where
  name : String
  aliases : List String := []
  summary : String := ""
  params : Contract := []
  behavior : Behavior
deriving DecidableEq, Repr

namespace Definition

/-- All names that an action can be found by. -/
def names (d : Definition) : List String := d.name :: d.aliases

/-- A short text for people who develop actions. -/
def shown (d : Definition) : String :=
  "ActionDefinition \x7b name: " ++ Text.quoted d.name ++ ", params: " ++
    Decimal.natText d.params.length ++ " \x7d"

end Definition

structure Registry where
  /-- What the names lead to; for a name that stands here twice the first place counts. -/
  entries : List (String × Definition) := []
  /-- The names of the accepted definitions, in the order of acceptance. -/
  order : List String := []
deriving DecidableEq, Repr

namespace Registry

def lookup? (r : Registry) (name : String) : Option Definition := r.entries.lookup name

def lookup (r : Registry) (name : String) : Except Error Definition :=
  match r.lookup? name with
  | some d => .ok d
  | none => .error (.actionNotFound name)

/-- The first name of a definition that is taken. -/
def taken? (r : Registry) (d : Definition) : Option String :=
  d.names.find? fun name => (r.lookup? name).isSome

/-- Lets a name lead to a definition. -/
def enter (d : Definition) (r : Registry) (name : String) : Registry :=
  { r with entries := (name, d) :: r.entries }

/-- Adds a definition at the end, or says which of its names is taken. -/
def register (r : Registry) (d : Definition) : Except Error Registry :=
  match r.taken? d with
  | some name => .error (.internal s!"action '{name}' registered twice")
  | none =>
    let entered := d.names.foldl (enter d) r
    .ok { entered with order := entered.order ++ [d.name] }

/-- What is left of an attempt to add a definition: when it is refused, the registry as it was. -/
def attempt (r : Registry) (d : Definition) : Registry :=
  match r.register d with
  | .ok r' => r'
  | .error _ => r

/-- Adds those of the definitions whose names are free. -/
def registerAll (r : Registry) (ds : List Definition) : Registry := ds.foldl attempt r

/-- The definitions as users see them, in order. -/
def catalog (r : Registry) : List Definition := r.order.filterMap r.lookup?

def size (r : Registry) : Nat := r.order.length

end Registry

/-! ## The catalog as JSON -/

def Spec.fields (spec : Spec) : List (String × Json) :=
  [("name", .str spec.name), ("type", .str spec.kind.name), ("required", .bool spec.required)] ++
    (spec.default.map fun d => ("default", d.json)).toList ++
    [("description", .str spec.description)] ++
    (spec.olderName.map fun a => ("alias", Json.str a)).toList

/-- Fields in the order in which users read them; no aliases are not mentioned. -/
def Definition.fields (d : Definition) : List (String × Json) :=
  [("name", .str d.name)] ++
    (if d.aliases.isEmpty then [] else [("aliases", .arr (d.aliases.map .str))]) ++
    [("summary", .str d.summary), ("params", .arr (d.params.map fun spec => .obj spec.fields))]

def Registry.json (r : Registry) : Json := .arr (r.catalog.map fun d => .obj d.fields)

end UiRunner.Action
