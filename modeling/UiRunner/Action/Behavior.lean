import UiRunner.Action.Key
import UiRunner.Action.Parameter
import UiRunner.Action.Polling
import UiRunner.Files.Name

/-!
# Behaviors

What the builtin actions do. An element that never shows up and a check that does not hold are
failed outcomes; a selector that cannot be resolved and a device command that fails are errors.
-/
namespace UiRunner.Action

open Decimal

/-- What an action found out, with a message for the report. -/
inductive Outcome where
  | passed (message : String)
  | failed (message : String)
deriving DecidableEq, Repr

inductive Behavior where
  | launchApp
  | click
  | typeText
  | waitForElement
  | assertText
  | pressKey
  | screenshot
  | wait
deriving DecidableEq, Repr

def selectorOf (ps : Params) : Except Error Selector :=
  Selector.parse (ps.str "kind") (ps.str "value")

/-- Seconds to wait for an element; a negative number counts as zero. -/
def timeoutOf (ps : Params) : Nat := (ps.int "timeout").toNat

/-- A pause after an interaction, so that the screen can react. -/
def settle (s : Settings) : Script Unit :=
  if s.interactionPause > 0 then Script.pause (.ofMillis s.interactionPause) else pure ()

def launchApp (ps : Params) : Script Outcome := do
  let package := ps.str "package"
  Script.activate package
  Script.pause (.ofSeconds (ps.float "settle_secs"))
  let current ← Script.currentPackage
  if current = package then return .passed s!"App '{package}' launched/activated."
  else return .failed s!"Launched '{package}' but current package is '{current}'."

def click (s : Settings) (ps : Params) : Script Outcome := do
  let selector ← selectorOf ps
  let query ← selector.resolve
  let secs := timeoutOf ps
  match ← poll s query secs .clickable with
  | some e =>
    Script.click e
    settle s
    return .passed s!"Clicked element ({selector.text})"
  | none =>
    return .failed s!"Element not found or not clickable within {natText secs}s ({selector.text})"

def typeText (s : Settings) (ps : Params) : Script Outcome := do
  let selector ← selectorOf ps
  let query ← selector.resolve
  let secs := timeoutOf ps
  let text := ps.str "text"
  match ← poll s query secs .visible with
  | some e =>
    Script.typeKeys e text
    settle s
    return .passed s!"Input '{text}' into element ({selector.text})"
  | none =>
    return .failed s!"Element not found within {natText secs}s ({selector.text}) for text input"

def waitForElement (s : Settings) (ps : Params) : Script Outcome := do
  let selector ← selectorOf ps
  let query ← selector.resolve
  let secs := timeoutOf ps
  let visible := ps.bool "visible"
  let state := if visible then "visible" else "present"
  match ← poll s query secs (if visible then .visible else .present) with
  | some _ => return .passed s!"Element ({selector.text}) is {state}."
  | none => return .failed s!"Element not {state} within {natText secs}s ({selector.text})"

def assertText (s : Settings) (ps : Params) : Script Outcome := do
  let selector ← selectorOf ps
  let query ← selector.resolve
  let secs := timeoutOf ps
  let expected := ps.str "expected"
  match ← poll s query secs .present with
  | none => return .failed s!"Element not found within {natText secs}s ({selector.text})"
  | some e =>
    let actual ← Script.textOf e
    let part := ps.bool "contains"
    let relation := if part then "contains" else "equals"
    let wish := if part then "to contain" else "to equal"
    if (if part then Text.contains actual expected else actual == expected) then
      return .passed s!"Text of ({selector.text}) {relation} '{expected}'"
    else
      return .failed s!"Expected text of ({selector.text}) {wish} '{expected}', got '{actual}'"

def pressKey (s : Settings) (ps : Params) : Script Outcome := do
  let name := ps.str "key"
  match Key.code? name with
  | none => return .failed s!"Unsupported key '{name}'. Supported: {Key.supported}"
  | some code =>
    Script.pressKey code
    settle s
    return .passed s!"Pressed key '{Key.canonical name}'."

def screenshot (s : Settings) (ps : Params) : Script Outcome := do
  let wanted := ps.str "filename"
  let name := Files.safeName wanted
  if Text.isBlankText name then return .failed s!"Unusable screenshot file name '{wanted}'"
  else
    let dir := s.reportsDir
    match ← Script.makeDirectories dir with
    | .error e => return .failed s!"Error creating reports directory {dir}: {e.message}"
    | .ok () =>
      let png ← Script.screenshot
      let path := Path.join dir name
      match ← Script.write path png with
      | .ok () => return .passed s!"Screenshot saved to {path}"
      | .error e => return .failed s!"Failed to save screenshot {name}: {e.message}"

def wait (ps : Params) : Script Outcome := do
  let secs := ps.float "seconds"
  if secs.isBelowZero then
    return .failed s!"Invalid number of seconds provided: {secs.positional}"
  else
    Script.pause (.ofSeconds secs)
    return .passed s!"Waited for {secs.positional} seconds."

/-- Runs an action with typed parameters. -/
def Behavior.script (b : Behavior) (s : Settings) (ps : Params) : Script Outcome :=
  match b with
  | .launchApp => Action.launchApp ps
  | .click => Action.click s ps
  | .typeText => Action.typeText s ps
  | .waitForElement => Action.waitForElement s ps
  | .assertText => Action.assertText s ps
  | .pressKey => Action.pressKey s ps
  | .screenshot => Action.screenshot s ps
  | .wait => Action.wait ps

end UiRunner.Action
