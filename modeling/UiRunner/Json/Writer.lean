import UiRunner.Json.Value

/-!
# Writing JSON

`compact` writes a value on one line without blanks; `pretty` puts every item and field on a line
of its own, two blanks deeper than what holds it.
-/
namespace UiRunner.Json

def hexPair (n : Nat) : String :=
  .ofList [Nat.digitChar (n / 16), Nat.digitChar (n % 16)]

/-- A character inside quotes; only quotes, backslashes and controls are escaped. -/
def escapeChar (c : Char) : String :=
  if c == '\x22' then "\\\""
  else if c == '\\' then "\\\\"
  else if c == '\n' then "\\n"
  else if c == '\r' then "\\r"
  else if c == '\t' then "\\t"
  else if c == '\x08' then "\\b"
  else if c == '\x0c' then "\\f"
  else if c.toNat < 32 then "\\u00" ++ hexPair c.toNat
  else c.toString

def quote (s : String) : String := "\"" ++ String.join (s.toList.map escapeChar) ++ "\""

mutual

def compact : Json → String
  | .null => "null"
  | .bool b => if b then "true" else "false"
  | .num n => n.text
  | .str s => quote s
  | .arr items => "[" ++ ",".intercalate (compactItems items) ++ "]"
  | .obj fields => "\x7b" ++ ",".intercalate (compactFields fields) ++ "\x7d"

def compactItems : List Json → List String
  | [] => []
  | v :: vs => v.compact :: compactItems vs

def compactFields : List (String × Json) → List String
  | [] => []
  | (name, v) :: rest => (quote name ++ ":" ++ v.compact) :: compactFields rest

end

def indent (depth : Nat) : String := .ofList (List.replicate (2 * depth) ' ')

/-- Entries one to a line between brackets; nothing stands between the brackets of an empty one. -/
def block (opening closing : String) (depth : Nat) (entries : List String) : String :=
  if entries.isEmpty then opening ++ closing
  else opening ++ "\n" ++ ",\n".intercalate (entries.map (indent (depth + 1) ++ ·)) ++ "\n" ++
    indent depth ++ closing

mutual

def prettyAt (depth : Nat) : Json → String
  | .arr items => block "[" "]" depth (prettyItems (depth + 1) items)
  | .obj fields => block "\x7b" "\x7d" depth (prettyFields (depth + 1) fields)
  | .null => "null"
  | .bool b => if b then "true" else "false"
  | .num n => n.text
  | .str s => quote s

def prettyItems (depth : Nat) : List Json → List String
  | [] => []
  | v :: vs => v.prettyAt depth :: prettyItems depth vs

def prettyFields (depth : Nat) : List (String × Json) → List String
  | [] => []
  | (name, v) :: rest => (quote name ++ ": " ++ v.prettyAt depth) :: prettyFields depth rest

end

def pretty (v : Json) : String := v.prettyAt 0

example : (Json.arr [.int 1, .bool true, .str "a\n"]).compact = "[1,true,\"a\\n\"]" := by
  decide +kernel

end UiRunner.Json
