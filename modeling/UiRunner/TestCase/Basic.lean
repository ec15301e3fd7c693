import UiRunner.Error
import UiRunner.Json.Writer

/-!
# Test cases

A named list of steps. The parameters of a step are free-form until the step is executed.
-/
namespace UiRunner

structure Step where
  action : String := ""
  params : Json.Fields := []
  /-- Free text for the author. -/
  notes : Option String := none
deriving Repr

structure TestCase where
  name : String
  steps : List Step := []
deriving Repr

namespace Step

/-- A step from parameters of any shape; only an object holds any. -/
def new (action : String) (params : Json) : Step := { action, params := params.fields }

def json (s : Step) : Json :=
  .obj ([("action", .str s.action), ("params", .obj s.params)] ++
    (s.notes.map fun text => ("notes", Json.str text)).toList)

end Step

namespace TestCase

def json (c : TestCase) : Json :=
  .obj [("name", .str c.name), ("steps", .arr (c.steps.map Step.json))]

/-- A case must have a step. -/
def validate (c : TestCase) : Except Error Unit :=
  if c.steps.isEmpty then .error (.configInvalid s!"test case '{c.name}' has no steps")
  else .ok ()

end TestCase

end UiRunner
