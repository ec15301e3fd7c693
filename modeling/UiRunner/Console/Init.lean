import UiRunner.Console.Host

/-!
# The init command

Writes a fresh capabilities file. Whether it may be written and which device goes into it is
settled before anything is changed.
-/
namespace UiRunner.Console

open Text

variable {σ : Type}

structure InitOptions where
  device : Option String := none
  /-- Take the first authorized device that adb lists. -/
  detect : Bool := false
  /-- Replace a file that exists. -/
  force : Bool := false
deriving DecidableEq, Repr

def detectDevice (h : Host σ) (s : Settings) : Except Error String :=
  match h.adb.find s.preflight.adb with
  | none => .error (Session.Adb.unreachable "not found in PATH")
  | some adb =>
    match h.adb.devices adb with
    | .error e => .error e
    | .ok devices =>
      match Session.Adb.firstAuthorized? devices with
      | none => .error (.unreachable "Android device" "no authorized device found")
      | some serial => .ok serial

/-- The device for the file. -/
def chosenDevice (h : Host σ) (s : Settings) (o : InitOptions) : Except Error (Option String) :=
  if o.detect then (detectDevice h s).map some else .ok o.device

def capabilitiesText (device : Option String) : String :=
  (Session.defaultCapabilities device).pretty

/-- Creates the directory that a file is to stand in. -/
def makeParent (files : Files.Tree) (path : Path) : Except Files.Problem Unit × Files.Tree :=
  match path.parent? with
  | none => (.ok (), files)
  | some dir => files.makeDirectories dir

/-- Writes a file and creates its directory. The directory stays when the file cannot be written. -/
def writeInto (files : Files.Tree) (path : Path) (text : String) :
    Except Files.Problem Unit × Files.Tree :=
  match makeParent files path with
  | (.error p, files) => (.error p, files)
  | (.ok (), files) =>
    match files.write path (Bytes.ofText text) with
    | .error p => (.error p, files)
    | .ok files => (.ok (), files)

/-- What is left to do after the file was written. -/
def hint (p : Paint) : String :=
  "Edit 'appium:deviceName' or rerun with " ++ p.style [.bold] "--detect-device" ++
    " before running tests."

def writeCapabilities (h : Host σ) (path : Path) (device : Option String) (d : Desk σ) :
    Verdict × Desk σ :=
  match writeInto d.files path (capabilitiesText device) with
  | (.error p, files) => (.error (.io p.message), d.setFiles files)
  | (.ok (), files) =>
    let d := (d.setFiles files).printLine ("Capabilities written to " ++ path)
    (.ok true, if device.isNone then d.printLine (hint h.paint) else d)

def announce (h : Host σ) (o : InitOptions) (device : Option String) (d : Desk σ) : Desk σ :=
  match device with
  | some serial =>
    if o.detect then d.printLine ("Detected device " ++ h.paint.style [.green] serial) else d
  | none => d

def init (h : Host σ) (s : Settings) (o : InitOptions) (d : Desk σ) : Verdict × Desk σ :=
  match h.capabilitiesFile s with
  | .error e => (.error e, d)
  | .ok path =>
    if d.files.exists_ path && !o.force then
      (.error (.configInvalid s!"{path} already exists. Use --force to overwrite"), d)
    else
      match chosenDevice h s o with
      | .error e => (.error e, d)
      | .ok device => writeCapabilities h path device (announce h o device d)

end UiRunner.Console
