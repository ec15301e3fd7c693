import UiRunner.Json.Writer
import UiRunner.Run.Stage

/-!
# Diagnosis

All checks are made, also after one has failed, and each leaves one finding. No session is opened.
-/
namespace UiRunner.Run

open Session

/-- What a check found: the problem, if there is one. -/
structure Finding where
  name : String
  problem : Option Error := none
deriving DecidableEq, Repr

namespace Finding

def passed (f : Finding) : Bool := f.problem.isNone

def message? (f : Finding) : Option String := f.problem.map Error.message

def json (f : Finding) : Json :=
  Json.ofFields
    ([("name", .str f.name), ("passed", .bool f.passed)] ++
      (f.message?.map fun m => ("message", Json.str m)).toList)

def ofVerdict (c : Check) : Except Error Unit → Finding
  | .ok () => ⟨c.name, none⟩
  | .error e => ⟨c.name, some e⟩

end Finding

/-- Makes the checks in order. A panic of a check goes through the diagnosis. -/
def diagnose (config : Config) : List Check → Course (Except Panic (List Finding))
  | [] => pure (.ok [])
  | c :: rest => do
    match ← Course.check c config with
    | .error p => pure (.error p)
    | .ok verdict =>
      match ← diagnose config rest with
      | .error p => pure (.error p)
      | .ok findings => pure (.ok (Finding.ofVerdict c verdict :: findings))

end UiRunner.Run
