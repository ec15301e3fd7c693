import UiRunner.Text.Blank

/-!
# The grammar of command lines

Which options a line may have and how many values each takes, and which words begin a subcommand.
`read` goes through the words of a line up to the subcommand. An option takes at most one value,
after an equals sign or as the next word, and may be given once.
-/
namespace UiRunner.Console

/-- How many values an option takes. -/
inductive Arity where
  | none
  | one
  | atMostOne
deriving DecidableEq, Repr

structure OptionSpec where
  name : String
  arity : Arity := .none
  /-- A path is not empty. -/
  isPath : Bool := false
  about : String := ""
deriving DecidableEq, Repr

structure Grammar where
  options : List OptionSpec := []
  /-- The operands, which are paths, by the names that users see. -/
  operands : List String := []
  /-- The words that begin a subcommand. -/
  commands : List String := []
  /-- Whether the version can be asked for. -/
  hasVersion : Bool := false
deriving DecidableEq, Repr

/-- What is wrong with a command line. -/
inductive UsageError where
  | unexpected (word : String)
  | missingCommand
  | unknownCommand (word : String)
  | missingOperand (name : String)
  | missingValue (name : String)
  | needlessValue (name : String)
  | repeated (name : String)
  | conflict (one other : String)
deriving DecidableEq, Repr

def UsageError.message : UsageError → String
  | .unexpected word => s!"unexpected argument '{word}' found"
  | .missingCommand => "a subcommand is required but none was given"
  | .unknownCommand word => s!"unrecognized subcommand '{word}'"
  | .missingOperand name => s!"the required argument <{name}> was not provided"
  | .missingValue name => s!"a value is required for '{name}' but none was supplied"
  | .needlessValue name => s!"'--{name}' takes no value"
  | .repeated name => s!"'--{name}' cannot be used multiple times"
  | .conflict one other => s!"'--{one}' cannot be used with '--{other}'"

/-- Why a line is not read to its end. -/
inductive Stop where
  | help
  | version
  | usage (e : UsageError)
deriving DecidableEq, Repr

/-- What a line gives: options with their values, and operands, in order. -/
structure Given where
  options : List (String × Option String) := []
  operands : List String := []
deriving DecidableEq, Repr

namespace Given

def has (g : Given) (name : String) : Bool := (g.options.lookup name).isSome

/-- The value of an option, if it is given with one. -/
def value? (g : Given) (name : String) : Option String := (g.options.lookup name).join

def addOption (g : Given) (o : OptionSpec) (value : Option String) : Except Stop Given :=
  if g.has o.name then .error (.usage (.repeated o.name))
  else if o.isPath && value == some "" then .error (.usage (.missingValue o.name))
  else .ok { g with options := g.options ++ [(o.name, value)] }

def addOperand (g : Given) (m : Grammar) (word : String) : Except Stop Given :=
  match m.operands[g.operands.length]? with
  | none => .error (.usage (.unexpected word))
  | some name =>
    if word.isEmpty then .error (.usage (.missingValue name))
    else .ok { g with operands := g.operands ++ [word] }

def addOperands (g : Given) (m : Grammar) : List String → Except Stop Given
  | [] => .ok g
  | word :: rest =>
    match g.addOperand m word with
    | .error s => .error s
    | .ok g => g.addOperands m rest

end Given

/-- The kinds of words. -/
inductive Word where
  /-- Two hyphens: what follows are operands. -/
  | separator
  | long (name : String) (value : Option String)
  | short (first : Char)
  | plain
deriving DecidableEq, Repr

/-- The name before an equals sign, and what follows it. -/
def splitValue (cs : List Char) : Word :=
  .long (.ofList (cs.takeWhile (· != '=')))
    (match cs.dropWhile (· != '=') with
      | [] => none
      | _ :: value => some (.ofList value))

def Word.ofText (s : String) : Word :=
  match s.toList with
  | ['-', '-'] => .separator
  | '-' :: '-' :: cs => splitValue cs
  | '-' :: c :: _ => .short c
  | _ => .plain

namespace Grammar

def option? (m : Grammar) (name : String) : Option OptionSpec := m.options.find? (·.name == name)

/-- An option of the grammar's own making, or none. -/
def ownOption (m : Grammar) (word name : String) (value : Option String) : Stop :=
  if name != "help" && !(m.hasVersion && name == "version") then .usage (.unexpected word)
  else if value.isSome then .usage (.needlessValue name)
  else if name == "help" then .help
  else .version

def shortOption (m : Grammar) (word : String) (c : Char) : Stop :=
  if c == 'h' then .help
  else if m.hasVersion && c == 'V' then .version
  else .usage (.unexpected word)

/-- Whether a word can be the value of the option before it. -/
def isValue (word : String) : Bool := Word.ofText word == .plain

/-- The value of an option, and how many of the words after it are used up. -/
def valueOf (o : OptionSpec) (attached : Option String) (rest : List String) :
    Except Stop (Option String × Nat) :=
  match o.arity, attached, rest.head?.filter isValue with
  | .none, none, _ => .ok (none, 0)
  | .none, some _, _ => .error (.usage (.needlessValue o.name))
  | _, some value, _ => .ok (some value, 0)
  | _, none, some word => .ok (some word, 1)
  | .one, none, none => .error (.usage (.missingValue o.name))
  | .atMostOne, none, none => .ok (none, 0)

/-- Reads words; the rest begins with a subcommand, if there is one. -/
def read (m : Grammar) (words : List String) (g : Given) : Except Stop (Given × List String) :=
  match words with
  | [] => .ok (g, [])
  | word :: rest =>
    match Word.ofText word with
    | .separator => (g.addOperands m rest).map fun g => (g, [])
    | .short c => .error (m.shortOption word c)
    | .plain =>
      if word ∈ m.commands then .ok (g, word :: rest)
      else
        match g.addOperand m word with
        | .error s => .error s
        | .ok g => read m rest g
    | .long name attached =>
      match m.option? name with
      | none => .error (m.ownOption word name attached)
      | some o =>
        match valueOf o attached rest with
        | .error s => .error s
        | .ok (value, used) =>
          match g.addOption o value with
          | .error s => .error s
          | .ok g => read m (rest.drop used) g
termination_by words.length
decreasing_by all_goals simp only [List.length_cons, List.length_drop]; omega

end Grammar

end UiRunner.Console
