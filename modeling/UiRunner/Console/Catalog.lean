import UiRunner.Action.Builtin
import UiRunner.Json.Writer
import UiRunner.Text.Style

/-!
# The catalog for people

Every action with its other names, and a line for each of its parameters.
-/
namespace UiRunner.Console

open UiRunner.Action Text

/-- Whether a parameter must be given, or what stands in for it. -/
def qualifier (spec : Spec) : String :=
  if spec.required then "required"
  else
    match spec.default with
    | some d => "default " ++ d.json.compact
    | none => "optional"

def parameterLine (p : Paint) (spec : Spec) : String :=
  "    " ++ padRight 12 spec.name ++ " " ++ padRight 8 spec.kind.name ++ " " ++
    padRight 16 (qualifier spec) ++ " " ++ p.style [.dimmed] spec.description

def aliasLines (p : Paint) (names : List String) : List String :=
  if names.isEmpty then []
  else ["    " ++ p.style [.dimmed] "also:" ++ " " ++ ", ".intercalate names]

def actionLines (p : Paint) (d : Definition) : List String :=
  ["", "  " ++ p.style [.bold, .white] d.name ++ " " ++ p.style [.dimmed] d.summary] ++
    aliasLines p d.aliases ++ d.params.map (parameterLine p)

def catalogLines (p : Paint) (r : Registry) : List String :=
  p.style [.cyan] "Actions:" :: r.catalog.flatMap (actionLines p)

def shownCatalog (p : Paint) (json : Bool) (r : Registry) : String :=
  if json then r.json.pretty ++ "\n" else String.join ((catalogLines p r).map (· ++ "\n"))

end UiRunner.Console
