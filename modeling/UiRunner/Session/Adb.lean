import UiRunner.Error
import UiRunner.Files.Storage
import UiRunner.Text.Blank
import UiRunner.Text.Lines
import UiRunner.Text.Quoted

/-!
# Attached devices

The output of `adb devices`: a banner, then a line for each device with its serial and its state.
What stands before the banner, blank lines and lines that begin with a star do not count.
-/
namespace UiRunner.Session

open Decimal

/-- The state that adb reports of a device. -/
inductive DeviceState where
  | device
  | unauthorized
  | offline
  | other (word : String)
deriving DecidableEq, Repr

namespace DeviceState

def ofWord (word : String) : DeviceState :=
  if word = "device" then .device
  else if word = "unauthorized" then .unauthorized
  else if word = "offline" then .offline
  else .other word

/-- The state as messages show it. -/
def shown : DeviceState → String
  | .device => "Device"
  | .unauthorized => "Unauthorized"
  | .offline => "Offline"
  | .other word => "Other(" ++ Text.quoted word ++ ")"

end DeviceState

/-- One attached device. -/
structure Attached where
  serial : String
  state : DeviceState
deriving DecidableEq, Repr

def Attached.isAuthorized (a : Attached) : Bool := a.state == .device

namespace Adb

def banner : List Char := "List of devices".toList

/-- A line about a device: its first two words. -/
def ofLine? (line : List Char) : Option Attached :=
  if line.all Text.isBlank || line.head? == some '*' then none
  else
    match Text.wordsChars line with
    | serial :: state :: _ => some ⟨.ofList serial, .ofWord (.ofList state)⟩
    | _ => none

def parseDevices (output : String) : List Attached :=
  let lines := (Text.linesChars output.toList).dropWhile fun l => !banner.isPrefixOf l
  (lines.drop 1).filterMap ofLine?

/-- What running the adb program comes to. -/
inductive Behavior where
  /-- There is no such file, or it cannot be run. -/
  | unstartable (problem : Files.Problem)
  | hangs
  /-- It ended without an exit code. -/
  | killed
  | exits (code : Nat) (output : Bytes)
deriving DecidableEq, Repr

/-- Where adb is found when no path is given, and how the program at a path behaves. -/
structure Installation where
  onPath : Option Path := none
  run : Path → Behavior := fun _ => .unstartable .notFound

/-- How the file at a path behaves when it is run, if the only program is at this place. -/
def runIn (files : Files.Tree) (program : Files.Place) (b : Behavior) (p : Path) : Behavior :=
  match files.locate p with
  | .error e => .unstartable e
  | .ok (_, none) => .unstartable .notFound
  | .ok (_, some .dir) => .unstartable .permissionDenied
  | .ok (place, some (.file _)) => if place = program then b else .unstartable .permissionDenied

/-- An installation in a tree of files, where names without a slash are looked for in a directory,
if there is one. A program that cannot be started is not found there. -/
def Installation.inTree (files : Files.Tree) (search : Option Path) (program : Files.Place)
    (b : Behavior) : Installation where
  onPath := search.bind fun dir =>
    let p := Path.join dir "adb"
    match runIn files program b p with
    | .unstartable _ => none
    | _ => some p
  run p :=
    if '/' ∈ p.toList then runIn files program b p
    else
      match search with
      | some dir =>
        if p.isEmpty then .unstartable .notFound else runIn files program b (Path.join dir p)
      | none => .unstartable .notFound

def Installation.find (i : Installation) (given : Option Path) : Option Path :=
  match given with
  | some p => some p
  | none => i.onPath

def unreachable (hint : String) : Error := .unreachable "adb" hint

/-- How many seconds adb is waited for. -/
def patience : Nat := 10

/-- The devices that the adb at a path lists. -/
def Installation.devices (i : Installation) (adb : Path) : Except Error (List Attached) :=
  match i.run adb with
  | .unstartable p => .error (unreachable s!"failed to run {adb}: {p.message}")
  | .hangs =>
    .error (unreachable s!"'adb devices' did not answer within {natText patience} seconds")
  | .killed => .error (unreachable "'adb devices' exited with code -1")
  | .exits 0 output => .ok (parseDevices (Bytes.decodeLossy output))
  | .exits code _ => .error (unreachable s!"'adb devices' exited with code {natText code}")

/-- How many milliseconds that takes. -/
def Installation.takes (i : Installation) (adb : Path) : Nat :=
  match i.run adb with
  | .hangs => patience * 1000
  | _ => 0

/-- The serial of the first authorized device. -/
def firstAuthorized? (ds : List Attached) : Option String :=
  (ds.find? (·.isAuthorized)).map (·.serial)

end Adb

end UiRunner.Session
