import UiRunner.Console.Host
import UiRunner.Run.Diagnosis

/-!
# The doctor command

Makes every check, whatever a run is set to leave out, and lists the attached devices. The
capabilities can be checked only when they can be read. No session is opened.
-/
namespace UiRunner.Console

open Run Text

variable {σ : Type}

/-- What the doctor has found. -/
structure Checkup where
  serverUrl : String
  findings : List Finding
  capabilitiesError : Option Error
  devices : List Session.Attached
deriving DecidableEq, Repr

namespace Checkup

def passed (c : Checkup) : Bool := c.capabilitiesError.isNone && c.findings.all Finding.passed

def deviceJson (a : Session.Attached) : Json :=
  Json.ofFields [("serial", .str a.serial), ("authorized", .bool a.isAuthorized)]

def json (c : Checkup) : Json :=
  Json.ofFields
    [("server_url", .str c.serverUrl), ("checks", .arr (c.findings.map Finding.json)),
     ("capabilities_error", (c.capabilitiesError.map fun e => Json.str e.message).getD .null),
     ("devices", .arr (c.devices.map deviceJson)), ("passed", .bool c.passed)]

def mark (p : Paint) (good : Bool) : String :=
  if good then p.style [.green] "✓" else p.style [.red] "✗"

def findingLine (p : Paint) (f : Finding) : String :=
  "  " ++ mark p f.passed ++ " " ++ f.name ++ (f.message?.map (": " ++ ·)).getD ""

def problemLine (p : Paint) (e : Error) : String :=
  "  " ++ mark p false ++ " capabilities: " ++ e.message

def deviceLine (p : Paint) (a : Session.Attached) : String :=
  "  " ++ mark p a.isAuthorized ++ " " ++ padRight 24 a.serial ++ " " ++ a.state.shown

def lines (p : Paint) (c : Checkup) : List String :=
  [p.style [.cyan] "Automation server:" ++ " " ++ c.serverUrl] ++ c.findings.map (findingLine p) ++
    (c.capabilitiesError.map (problemLine p)).toList ++
    (if c.devices.isEmpty then []
     else ["", p.style [.cyan] "Devices:"] ++ c.devices.map (deviceLine p))

def shown (p : Paint) (json : Bool) (c : Checkup) : String :=
  if json then c.json.pretty ++ "\n" else String.join ((c.lines p).map (· ++ "\n"))

end Checkup

/-- The checks of the doctor. -/
def doctorChecks (s : Settings) (readable : Bool) : List Session.Check :=
  Session.Preflight.checks { capabilities := readable, adb := s.preflight.adb }

/-- The devices that are attached; none if adb does not tell. -/
def attachedDevices (h : Host σ) (s : Settings) : List Session.Attached :=
  match h.adb.find s.preflight.adb with
  | none => []
  | some adb => (h.adb.devices adb).toOption.getD []

/-- The session to check: without capabilities if they cannot be read. -/
def checkedConfig (s : Settings) : Except Error Session.Config → Session.Config
  | .ok config => config
  | .error _ => .new s.serverUrl []

def problemOf {α : Type} : Except Error α → Option Error
  | .ok _ => none
  | .error e => some e

def checkup (h : Host σ) (s : Settings) (d : Desk σ) : Except Error Checkup × Desk σ :=
  let config := h.sessionConfig s d.files
  let checks := doctorChecks s (problemOf config).isNone
  match h.perform s (diagnose (checkedConfig s config) checks) d with
  | (.error e, d) => (.error e, d)
  | (.ok findings, d) => (.ok ⟨s.serverUrl, findings, problemOf config, attachedDevices h s⟩, d)

def doctor (h : Host σ) (s : Settings) (json : Bool) (d : Desk σ) : Verdict × Desk σ :=
  match checkup h s d with
  | (.error e, d) => (.error e, d)
  | (.ok c, d) => (.ok c.passed, d.print (c.shown h.paint json))

end UiRunner.Console
