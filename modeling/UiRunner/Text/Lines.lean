/-!
# Lines

A line ends at a line feed, or at a carriage return with a line feed. A text that ends in a line
feed has no further, empty line after it.
-/
namespace UiRunner.Text

/-- The pieces between line feeds, the last one also when it is empty. -/
def pieces : List Char → List (List Char)
  | [] => [[]]
  | c :: cs =>
    if c = '\n' then [] :: pieces cs
    else match pieces cs with
      | [] => [[c]]
      | p :: ps => (c :: p) :: ps

def dropReturn (line : List Char) : List Char :=
  match line.getLast? with
  | some '\r' => line.dropLast
  | _ => line

/-- A carriage return counts as part of the ending only before a line feed. -/
def linesChars (cs : List Char) : List (List Char) :=
  let ps := pieces cs
  let ended := ps.dropLast.map dropReturn
  match ps.getLast? with
  | some [] | none => ended
  | some last => ended ++ [last]

def lines (s : String) : List String := (linesChars s.toList).map .ofList

end UiRunner.Text
