import UiRunner.Console.Help

/-!
# The program

From the words of the command line to the exit code: the log file is created first, then the
settings are read, then the command is performed. The code is zero for success, one for failure
and two for a command line that cannot be read.
-/
namespace UiRunner.Console

variable {σ : Type}

/-- How the program ends. -/
structure Ending (σ : Type) where
  code : Nat
  /-- What was written beside the output. -/
  complaint : String := ""
  desk : Desk σ

/-! ## The log file -/

/-- The directory and the name of a log file. -/
def logPlace? (path : Path) : Option (Path × String) :=
  path.fileName?.map fun name =>
    (((path.parent?).filter (!·.isEmpty)).getD ".", name)

/-- What creating the log file comes to. -/
inductive LogFile where
  | none
  | created (files : Files.Tree)
  /-- The run goes on without a log file. -/
  | refused (warning : String) (files : Files.Tree)
  /-- The file itself cannot be opened, and the program stops. -/
  | broken (problem : Files.Problem) (files : Files.Tree)

def logWarning (dir : Path) (p : Files.Problem) : String :=
  s!"Warning: Could not create log directory {dir}: {p.message}\n"

def createLog (files : Files.Tree) (path : Path) : LogFile :=
  match logPlace? path with
  | none => .none
  | some (dir, name) =>
    match files.makeDirectories dir with
    | (.error p, files) => .refused (logWarning dir p) files
    | (.ok (), files) =>
      match files.touch (Path.join dir name) with
      | .ok files => .created files
      | .error p => .broken p files

/-- Where the log goes, if it is wanted. -/
def Invocation.logPath? (i : Invocation) (d : Directories) : Option Path :=
  match i.logFile with
  | none => none
  | some given => given.or d.logFile?

def openLog (h : Host σ) (i : Invocation) (files : Files.Tree) : LogFile :=
  match i.logPath? h.directories with
  | none => .none
  | some path => createLog files path

/-! ## Commands -/

def Invocation.settings (h : Host σ) (i : Invocation) (files : Files.Tree) :
    Except Error Settings :=
  match i.config with
  | some path => Settings.loadFrom files path
  | none => Settings.load files h.directories

/-- The ending of a command. -/
def Ending.ofVerdict (warning : String) : Verdict × Desk σ → Ending σ
  | (.ok true, d) => ⟨0, warning, d⟩
  | (.ok false, d) => ⟨1, warning, d⟩
  | (.error e, d) => ⟨1, warning ++ s!"Error: {e.message}\n", d⟩

def Invocation.verdict (h : Host σ) (i : Invocation) (d : Desk σ) : Verdict × Desk σ :=
  match i.settings h d.files with
  | .error e => (.error e, d)
  | .ok s => i.command.perform h s d

def Invocation.perform (h : Host σ) (i : Invocation) (d : Desk σ) : Ending σ :=
  match openLog h i d.files with
  | .none => .ofVerdict "" (i.verdict h d)
  | .created files => .ofVerdict "" (i.verdict h (d.setFiles files))
  | .refused warning files => .ofVerdict warning (i.verdict h (d.setFiles files))
  | .broken p files => ⟨101, s!"Log file cannot be opened: {p.message}\n", d.setFiles files⟩

/-- The ending of a line that only asks for a notice. -/
def Notice.ending (d : Desk σ) : Notice → Ending σ
  | .help about => ⟨0, "", d.print (helpText about)⟩
  | .version => ⟨0, "", d.printLine versionText⟩
  | .usage e => ⟨2, e.text, d⟩

/-- Runs the program. -/
def program (h : Host σ) (words : List String) (d : Desk σ) : Ending σ :=
  match Invocation.ofWords words with
  | .error notice => notice.ending d
  | .ok i => i.perform h d

end UiRunner.Console
