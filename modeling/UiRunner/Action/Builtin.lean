import UiRunner.Action.Registry

/-!
# Builtin actions

The actions that every run knows. Aliases keep older test cases working.
-/
namespace UiRunner.Action

open Decimal

def kindSpec : Spec where
  name := "kind"
  kind := .string
  description := "Selector kind: accessibility-id, resource-id, xpath-expression, class-name, visible-text or platform-specific-query"
  olderName := some "selector_type"

def valueSpec : Spec where
  name := "value"
  kind := .string
  description := "Selector value"
  olderName := some "selector_value"

def timeoutSpec : Spec where
  name := "timeout"
  kind := .integer
  required := false
  default := some (.int 10)
  description := "Seconds to wait for the element"

/-- In the order in which they are listed to users. -/
def builtins : List Definition :=
  [{ name := "launchApp"
     aliases := ["launch_app_by_package"]
     summary := "Launch an app or bring it to the foreground"
     params :=
       [{ name := "package", kind := .string, description := "Application package name"
          olderName := some "package_name" },
        { name := "activity", kind := .string, required := false
          description := "Activity to start (informational)", olderName := some "activity_name" },
        { name := "settle_secs", kind := .float, required := false
          default := some (.float (Binary64.ofNat 5))
          description := "Seconds to wait for the app to load" }]
     behavior := .launchApp },
   { name := "click"
     aliases := ["click_element"]
     summary := "Wait until an element is displayed and enabled, then click it"
     params := [kindSpec, valueSpec, timeoutSpec]
     behavior := .click },
   { name := "typeText"
     aliases := ["input_text"]
     summary := "Wait until an element is displayed, then type into it"
     params :=
       [kindSpec, valueSpec,
        { name := "text", kind := .string, description := "Text to type"
          olderName := some "text_to_input" },
        timeoutSpec]
     behavior := .typeText },
   { name := "waitForElement"
     aliases := ["wait_for_element"]
     summary := "Wait for an element to be present or visible"
     params :=
       [kindSpec, valueSpec, timeoutSpec,
        { name := "visible", kind := .boolean, required := false, default := some (.bool true)
          description := "Require the element to be displayed, not just present" }]
     behavior := .waitForElement },
   { name := "assertText"
     summary := "Compare the text of an element with an expected value"
     params :=
       [kindSpec, valueSpec,
        { name := "expected", kind := .string, description := "Expected text" },
        { name := "contains", kind := .boolean, required := false, default := some (.bool false)
          description := "Accept the expected text as a substring" },
        timeoutSpec]
     behavior := .assertText },
   { name := "pressKey"
     aliases := ["press_android_key"]
     summary := "Press a named Android key"
     params :=
       [{ name := "key", kind := .string
          description := "BACK, HOME, ENTER, SEARCH, MENU, TAB, DEL, VOLUME_UP, VOLUME_DOWN, POWER or APP_SWITCH"
          olderName := some "key_code_name" }]
     behavior := .pressKey },
   { name := "screenshot"
     aliases := ["take_screenshot"]
     summary := "Save a PNG of the screen to the reports directory"
     params :=
       [{ name := "filename", kind := .string
          description := "File name under the reports directory" }]
     behavior := .screenshot },
   { name := "wait"
     aliases := ["wait_seconds"]
     summary := "Pause for a number of seconds"
     params := [{ name := "seconds", kind := .float, description := "Seconds to wait" }]
     behavior := .wait }]

def Registry.builtin : Registry := Registry.registerAll {} builtins

end UiRunner.Action
