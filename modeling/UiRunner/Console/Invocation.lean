import UiRunner.Console.Command
import UiRunner.Console.Grammar

/-!
# Invocations

What a command line asks for. Two options may stand before the subcommand and behind it; behind it
they count more.
-/
namespace UiRunner.Console

/-- The subcommands. -/
inductive CommandName where
  | run
  | actions
  | doctor
  | init
deriving DecidableEq, Repr

structure Invocation where
  /-- The configuration file to read. -/
  config : Option Path := none
  /-- Whether a log file is wanted, and where if not at the usual place. -/
  logFile : Option (Option Path) := none
  command : Command
deriving DecidableEq, Repr

/-- What is printed instead of running a command. -/
inductive Notice where
  | help (about : Option CommandName)
  | version
  | usage (e : UsageError)
deriving DecidableEq, Repr

def configOption : OptionSpec where
  name := "config"
  arity := .one
  isPath := true
  about := "Configuration file (default: config.toml in the config directory)"

def logFileOption : OptionSpec where
  name := "log-file"
  arity := .atMostOne
  isPath := true
  about := "Also write logs to a file; without a path, the default log location is used"

/-- The options that may stand anywhere. -/
def globalOptions : List OptionSpec := [configOption, logFileOption]

def Notice.ofStop (about : Option CommandName) : Stop → Notice
  | .help => .help about
  | .version => .version
  | .usage e => .usage e

namespace CommandName

def all : List CommandName := [.run, .actions, .doctor, .init]

def name : CommandName → String
  | .run => "run"
  | .actions => "actions"
  | .doctor => "doctor"
  | .init => "init"

def about : CommandName → String
  | .run => "Execute a test case (JSON, or YAML by extension)"
  | .actions => "List the available actions and their parameters"
  | .doctor => "Check the automation environment without opening a session"
  | .init => "Write a default capabilities file"

def ofName? (word : String) : Option CommandName := all.find? (·.name == word)

/-- The options of the subcommand alone. -/
def options : CommandName → List OptionSpec
  | .run => [{ name := "json", about := "Print the run report as JSON" }]
  | .actions => [{ name := "json", about := "Output the catalog as JSON" }]
  | .doctor => [{ name := "json", about := "Output results as JSON" }]
  | .init =>
    [{ name := "device", arity := .one, about := "Device serial to put in the capabilities" },
     { name := "detect-device", about := "Use the first authorized device reported by adb" },
     { name := "force", about := "Overwrite an existing capabilities file" }]

def operands : CommandName → List String
  | .run => ["CASE"]
  | _ => []

def grammar (c : CommandName) : Grammar where
  options := c.options ++ globalOptions
  operands := c.operands

/-- The command with what was given to it. -/
def command (c : CommandName) (g : Given) : Except UsageError Command :=
  match c, g.operands with
  | .run, case :: _ => .ok (.run ⟨case, g.has "json"⟩)
  | .run, [] => .error (.missingOperand "CASE")
  | .actions, _ => .ok (.actions (g.has "json"))
  | .doctor, _ => .ok (.doctor (g.has "json"))
  | .init, _ =>
    if g.has "device" && g.has "detect-device" then .error (.conflict "device" "detect-device")
    else .ok (.init ⟨g.value? "device", g.has "detect-device", g.has "force"⟩)

end CommandName

namespace Invocation

/-- What may stand before the subcommand. -/
def grammar : Grammar where
  options := globalOptions
  commands := CommandName.all.map CommandName.name ++ ["help"]
  hasVersion := true

/-- What is given for an option behind the subcommand, or else before it. -/
def innermost (name : String) (outer inner : Given) : Option (Option String) :=
  (inner.options.lookup name).or (outer.options.lookup name)

def ofCommand (outer : Given) (c : CommandName) (words : List String) : Except Notice Invocation :=
  match c.grammar.read words {} with
  | .error s => .error (.ofStop (some c) s)
  | .ok (inner, _) =>
    match c.command inner with
    | .error e => .error (.usage e)
    | .ok command =>
      .ok ⟨(innermost configOption.name outer inner).join,
        innermost logFileOption.name outer inner, command⟩

/-- The words behind `help` say which page is wanted. -/
def helpPage : List String → Notice
  | [] => .help none
  | word :: rest =>
    match CommandName.ofName? word, rest with
    | some c, [] => .help (some c)
    | some _, extra :: _ => .usage (.unknownCommand extra)
    | none, _ =>
      if word == "help" && rest.isEmpty then .help none else .usage (.unknownCommand word)

/-- Reads the words of a command line. -/
def ofWords (words : List String) : Except Notice Invocation :=
  match grammar.read words {} with
  | .error s => .error (.ofStop none s)
  | .ok (_, []) => .error (.usage .missingCommand)
  | .ok (outer, word :: rest) =>
    match CommandName.ofName? word with
    | some c => ofCommand outer c rest
    | none => .error (helpPage rest)

end Invocation

end UiRunner.Console
