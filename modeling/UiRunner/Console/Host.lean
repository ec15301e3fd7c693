import UiRunner.Settings

/-!
# What commands work with

A host is what a command finds: the user's directories, adb, the network and the terminal. A desk
is what it changes: the world, and what it has printed. Commands end with whether they succeeded,
or with an error.
-/
namespace UiRunner.Console

structure Host (σ : Type) where
  directories : Directories := {}
  adb : Session.Adb.Installation := {}
  network : Http.Network σ
  paint : Text.Paint := {}

structure Desk (σ : Type) where
  world : Run.World (WebDriver.Client σ)
  output : String := ""

abbrev Verdict := Except Error Bool

variable {σ : Type}

namespace Desk

/-- A desk before the first command. -/
def clean (net : σ) (files : Files.Tree) : Desk σ := { world := { outside := { net }, files } }

def files (d : Desk σ) : Files.Tree := d.world.files

def setFiles (d : Desk σ) (files : Files.Tree) : Desk σ :=
  { d with world := { d.world with files } }

def print (d : Desk σ) (text : String) : Desk σ := { d with output := d.output ++ text }

def printLine (d : Desk σ) (line : String) : Desk σ := d.print (line ++ "\n")

/-- The requests that went out, in order. -/
def requests (d : Desk σ) : List Http.Request := d.world.outside.requests.reverse

end Desk

namespace Host

def noCapabilitiesFile : Error :=
  .configInvalid "no capabilities file configured and no config directory available"

def capabilitiesFile (h : Host σ) (s : Settings) : Except Error Path :=
  match s.usedCapabilities? h.directories with
  | some path => .ok path
  | none => .error noCapabilitiesFile

/-- The session that the capabilities file asks for. -/
def sessionConfig (h : Host σ) (s : Settings) (files : Files.Tree) : Except Error Session.Config :=
  match h.capabilitiesFile s with
  | .error e => .error e
  | .ok path =>
    if files.exists_ path then Session.Config.load s.serverUrl files path
    else
      .error (.configInvalid
        s!"capabilities file {path} not found. Run 'uitest init' to create one")

/-- The outside of a run on this host. -/
def environment (h : Host σ) (s : Settings) : Run.Environment (WebDriver.Client σ) :=
  WebDriver.environment h.network s.patience h.adb

/-- What became of a run. One that broke, or waits without end, has no result. -/
def resultOf {α : Type} : Option (Except Run.Panic α) → Except Error α
  | some (.ok a) => .ok a
  | some (.error p) => .error (.internal s!"run task failed: {p.message}")
  | none => .error (.internal "run task failed: no answer")

/-- Runs a course at a desk. -/
def perform {α : Type} (h : Host σ) (s : Settings) (c : Run.Course (Except Run.Panic α))
    (d : Desk σ) : Except Error α × Desk σ :=
  let (result, world) := c.runWithin (h.environment s) none d.world
  (resultOf result, { d with world })

end Host

end UiRunner.Console
