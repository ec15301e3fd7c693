import UiRunner.Selector.Basic
import UiRunner.Text.Utf8

/-!
# Device commands

The commands that a session accepts, each with the type of its answer. A command can also fail
with an error; an element that is not on the screen is no failure of `find`.
-/
namespace UiRunner.Device

/-- A name that the remote side gave to an element. -/
abbrev ElementId := String

inductive Command where
  | find (query : Query)
  | displayed (element : ElementId)
  | enabled (element : ElementId)
  | click (element : ElementId)
  | typeKeys (element : ElementId) (text : String)
  | text (element : ElementId)
  | activate (app : String)
  | currentPackage
  | pressKey (code : Nat)
  | screenshot
deriving DecidableEq, Repr

@[reducible] def Command.Answer : Command → Type
  | .find _ => Option ElementId
  | .displayed _ => Bool
  | .enabled _ => Bool
  | .click _ => Unit
  | .typeKeys _ _ => Unit
  | .text _ => String
  | .activate _ => Unit
  | .currentPackage => String
  | .pressKey _ => Unit
  | .screenshot => Bytes

/-- The element that a command is about. -/
def Command.element? : Command → Option ElementId
  | .displayed e | .enabled e | .click e | .typeKeys e _ | .text e => some e
  | _ => none

end UiRunner.Device
