/-!
# XPath literals

XPath has no escapes, so a text with both kinds of quotes is written as a concatenation of
literals. `literal` writes a text; `Expr.parse?` and `Expr.value` read such expressions and say
which text they stand for.
-/
namespace UiRunner.XPath

/-- The pieces between occurrences of a character, one more than there are occurrences. -/
def splitAtChar (q : Char) : List Char → List (List Char)
  | [] => [[]]
  | c :: cs =>
    if c = q then [] :: splitAtChar q cs
    else match splitAtChar q cs with
      | [] => [[c]]
      | p :: ps => (c :: p) :: ps

def single : Char := '\x27'

def double : Char := '\x22'

def between (q : Char) (cs : List Char) : List Char := q :: (cs ++ [q])

/-- The literals that a text with single quotes is put together from: the pieces between them in
single quotes, and each single quote in double quotes. Empty pieces are left out. -/
def arguments : List (List Char) → List (List Char)
  | [] => []
  | [piece] => if piece.isEmpty then [] else [between single piece]
  | piece :: rest =>
    (if piece.isEmpty then [] else [between single piece]) ++
      between double [single] :: arguments rest

def literalChars (cs : List Char) : List Char :=
  if single ∉ cs then between single cs
  else if double ∉ cs then between double cs
  else "concat(".toList ++ List.intercalate ", ".toList (arguments (splitAtChar single cs)) ++ [')']

/-- A text as an XPath expression. -/
def literal (s : String) : String := .ofList (literalChars s.toList)

/-- A literal, or a concatenation of literals. -/
inductive Expr where
  | lit (text : List Char)
  | concat (texts : List (List Char))
deriving DecidableEq, Repr

namespace Expr

/-- The text that an expression stands for. -/
def value : Expr → List Char
  | .lit text => text
  | .concat texts => texts.flatten

/-- A literal at the start: what its quotes hold, and what follows it. -/
def parseLiteral? : List Char → Option (List Char × List Char)
  | [] => none
  | q :: cs =>
    if q = single ∨ q = double then
      match cs.dropWhile (· ≠ q) with
      | [] => none
      | _ :: rest => some (cs.takeWhile (· ≠ q), rest)
    else none

/-- Literals parted by a comma and a blank up to a closing parenthesis. -/
def parseArguments? : Nat → List Char → Option (List (List Char) × List Char)
  | 0, _ => none
  | fuel + 1, cs =>
    match parseLiteral? cs with
    | none => none
    | some (text, rest) =>
      match rest with
      | ')' :: rest => some ([text], rest)
      | ',' :: ' ' :: rest =>
        (parseArguments? fuel rest).map fun (texts, rest) => (text :: texts, rest)
      | _ => none

/-- A whole expression: a literal, or `concat` of two literals or more. -/
def parse? (cs : List Char) : Option Expr :=
  match parseLiteral? cs with
  | some (text, []) => some (.lit text)
  | some _ => none
  | none =>
    if "concat(".toList.isPrefixOf cs then
      match parseArguments? cs.length (cs.drop 7) with
      | some (texts, []) => if 2 ≤ texts.length then some (.concat texts) else none
      | _ => none
    else none

end Expr

example : (Expr.parse? (literalChars "it's \"me\"".toList)).map Expr.value =
    some "it's \"me\"".toList := by decide +kernel

end UiRunner.XPath
