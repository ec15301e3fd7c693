import UiRunner.Console.Invocation

/-!
# Help pages

The page of the program, and one for each subcommand.
-/
namespace UiRunner.Console

def programName : String := "uitest"

def versionText : String := "uitest 0.1.0"

/-- How an option is written. -/
def OptionSpec.usage (o : OptionSpec) : String :=
  let value := if o.isPath then "PATH" else o.name.map Char.toUpper
  match o.arity with
  | .none => "--" ++ o.name
  | .one => "--" ++ o.name ++ " <" ++ value ++ ">"
  | .atMostOne => "--" ++ o.name ++ " [<" ++ value ++ ">]"

/-- Two columns; the second one begins two blanks behind the longest first entry. -/
def columns (rows : List (String × String)) : List String :=
  let width := rows.foldl (fun w r => max w r.1.length) 0
  rows.map fun r => "  " ++ Text.padRight width r.1 ++ "  " ++ r.2

def optionRows (os : List OptionSpec) : List (String × String) :=
  os.map (fun o => ("    " ++ o.usage, o.about)) ++ [("-h, --help", "Print help")]

def commandRows : List (String × String) :=
  CommandName.all.map (fun c => (c.name, c.about)) ++
    [("help", "Print this message or the help of the given subcommand(s)")]

def programPage : List String :=
  ["Declarative UI-automation test runner", "", s!"Usage: {programName} [OPTIONS] <COMMAND>", "",
   "Commands:"] ++ columns commandRows ++ ["", "Options:"] ++
    columns (optionRows globalOptions ++ [("-V, --version", "Print version")])

def CommandName.usage (c : CommandName) : String :=
  String.join (s!"Usage: {programName} {c.name} [OPTIONS]" :: c.operands.map fun o => s!" <{o}>")

def CommandName.page (c : CommandName) : List String :=
  [c.about, "", c.usage, "", "Options:"] ++ columns (optionRows (c.options ++ globalOptions))

def helpText (about : Option CommandName) : String :=
  let lines := match about with
    | none => programPage
    | some c => c.page
  String.join (lines.map (· ++ "\n"))

def UsageError.text (e : UsageError) : String :=
  s!"error: {e.message}\n\nUsage: {programName} [OPTIONS] <COMMAND>\n\nFor more information, try '--help'.\n"

end UiRunner.Console
