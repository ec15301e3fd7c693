import UiRunner.Error
import UiRunner.Files.Storage
import UiRunner.Json.Reader
import UiRunner.Text.Blank

/-!
# Session configuration

The server to connect to and the capabilities that describe the device. `deviceName?` is the
device a session is for; `validate` says what keeps the capabilities from naming one.
-/
namespace UiRunner.Session

/-- Stands for the device in a fresh capabilities file. -/
def placeholder : String := "YOUR_DEVICE_ID"

/-- The capabilities that name the device, the first one present counts. -/
def deviceKeys : List String := ["appium:deviceName", "deviceName"]

structure Config where
  serverUrl : String
  capabilities : Json.Fields
deriving Repr

namespace Config

/-- The platform is Android unless the capabilities say otherwise. -/
def new (serverUrl : String) (capabilities : Json.Fields) : Config :=
  match capabilities.get? "platformName" with
  | some _ => ⟨serverUrl, capabilities⟩
  | none => ⟨serverUrl, capabilities.insert "platformName" (.str "Android")⟩

def rawDevice (c : Config) : Option Json := deviceKeys.findSome? fun k => c.capabilities.get? k

/-- The named device, unless the name is blank or the placeholder. -/
def deviceName? (c : Config) : Option String :=
  match (c.rawDevice.bind Json.str?).map Text.trim with
  | some name => if name.isEmpty || name == placeholder then none else some name
  | none => none

def validate (c : Config) : Except Error Unit :=
  let platform := ((c.capabilities.get? "platformName").bind Json.str?).getD ""
  if Text.isBlankText platform then
    .error (.configInvalid "capability 'platformName' is missing or empty")
  else
    match (c.rawDevice.bind Json.str?).map Text.trim with
    | none => .error (.configInvalid "capability 'appium:deviceName' is missing")
    | some name =>
      if name.isEmpty then .error (.configInvalid "capability 'appium:deviceName' is empty")
      else if name == placeholder then
        .error (.configInvalid s!"capability 'appium:deviceName' is still the placeholder {placeholder}. Run 'uitest init --detect-device' or edit the capabilities file")
      else .ok ()

/-- Reads a capabilities file. -/
def load (serverUrl : String) (files : Files.Tree) (path : Path) : Except Error Config :=
  match files.readText path with
  | .error e => .error (.fileRead path e.message)
  | .ok text =>
    match Json.read? text with
    | none => .error (.configUnreadable s!"{path} is not valid JSON")
    | some (.obj capabilities) => .ok (new serverUrl capabilities)
    | some _ => .error (.configInvalid s!"{path} must contain a JSON object of capabilities")

end Config

/-- The capabilities of a fresh file. -/
def defaultCapabilities (device : Option String) : Json :=
  Json.ofFields
    [("platformName", .str "Android"), ("appium:automationName", .str "UiAutomator2"),
     ("appium:deviceName", .str (device.getD placeholder)), ("appium:appPackage", .null),
     ("appium:appActivity", .null), ("appium:noReset", .bool true),
     ("appium:newCommandTimeout", .nat 3600)]

end UiRunner.Session
