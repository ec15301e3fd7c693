import UiRunner.Session.Adb
import UiRunner.Session.Config

/-!
# Preflight checks

Checks run before a session is opened, so that the user learns what is missing. Two of them can be
judged here: the device check from what adb lists, and the capabilities check from the
configuration. Whether the server answers is for whoever talks to it to say.
-/
namespace UiRunner.Session

open Decimal

inductive Check where
  /-- The server answers a status request. -/
  | server
  /-- The device is attached and may be debugged. -/
  | device (adb : Option Path)
  /-- The capabilities name a platform and a device. -/
  | capabilities
  /-- A check that takes so many milliseconds and whose outcome is known beforehand. -/
  | staged (name : String) (takes : Nat) (outcome : Option Error)
deriving DecidableEq, Repr

namespace Check

def name : Check → String
  | .server => "automation server"
  | .device _ => "target device"
  | .capabilities => "capabilities"
  | .staged name .. => name

/-- How many seconds the server may take to answer. -/
def serverPatience : Nat := 5

def missingAdb : Error :=
  Adb.unreachable "not found in PATH. Install Android SDK platform-tools and add them to PATH"

/-- What is wrong with the devices for a configuration that names this device, or none. -/
def judgeDevices (wanted : Option String) (devices : List Attached) : Except Error Unit :=
  match wanted with
  | some serial =>
    match devices.find? (·.serial == serial) with
    | some d =>
      match d.state with
      | .device => .ok ()
      | .unauthorized =>
        .error (.unreachable s!"Device {serial}"
          "USB debugging is not authorized. Accept the prompt on the device")
      | state => .error (.unreachable s!"Device {serial}" s!"adb reports it as {state.shown}")
    | none =>
      .error (.unreachable s!"Device {serial}"
        s!"not in 'adb devices' ({natText devices.length} device(s) attached)")
  | none =>
    if devices.any (·.isAuthorized) then .ok ()
    else
      .error (.unreachable "Android device"
        "no authorized device found. Connect a device and enable USB debugging")

/-- The device check with an installation of adb. -/
def judgeDevice (i : Adb.Installation) (adb : Option Path) (c : Config) : Except Error Unit :=
  match i.find adb with
  | none => .error missingAdb
  | some path =>
    match i.devices path with
    | .error e => .error e
    | .ok devices => judgeDevices c.deviceName? devices

/-- How many milliseconds that takes. -/
def deviceTakes (i : Adb.Installation) (adb : Option Path) : Nat :=
  match i.find adb with
  | none => 0
  | some path => i.takes path

/-- The verdict of a check for which the server need not be asked. -/
def verdict (i : Adb.Installation) (c : Config) : Check → Except Error Unit
  | .server => .ok ()
  | .device adb => judgeDevice i adb c
  | .capabilities => c.validate
  | .staged _ _ none => .ok ()
  | .staged _ _ (some e) => .error e

/-- How many milliseconds such a check takes. -/
def takes (i : Adb.Installation) : Check → Nat
  | .device adb => deviceTakes i adb
  | .staged _ ms _ => ms
  | _ => 0

end Check

/-- Which checks a run makes, and with which adb. -/
structure Preflight where
  server : Bool := true
  device : Bool := true
  capabilities : Bool := true
  adb : Option Path := none
deriving DecidableEq, Repr

/-- The checks in the order in which they are made. -/
def Preflight.checks (p : Preflight) : List Check :=
  (if p.server then [.server] else []) ++ (if p.device then [.device p.adb] else []) ++
    (if p.capabilities then [.capabilities] else [])

end UiRunner.Session
