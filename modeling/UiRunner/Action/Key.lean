import UiRunner.Text.Blank

/-!
# Keys

The keys that can be pressed by name, with their numbers.
-/
namespace UiRunner.Key

def table : List (String × Nat) :=
  [("BACK", 4), ("HOME", 3), ("ENTER", 66), ("SEARCH", 84), ("MENU", 82), ("TAB", 61), ("DEL", 67),
   ("VOLUME_UP", 24), ("VOLUME_DOWN", 25), ("POWER", 26), ("APP_SWITCH", 187)]

/-- The name without blanks around it and in capitals. -/
def canonical (name : String) : String := Text.upperAscii (Text.trim name)

def code? (name : String) : Option Nat := table.lookup (canonical name)

def supported : String := ", ".intercalate (table.map (·.1))

end UiRunner.Key
