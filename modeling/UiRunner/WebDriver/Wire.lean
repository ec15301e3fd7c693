import UiRunner.Device.Command
import UiRunner.Http.Exchange
import UiRunner.Json.Reader
import UiRunner.Json.Writer
import UiRunner.Text.Base64

/-!
# The WebDriver wire format

Every command is one request, and every reply an object with a `value`. A value with an `error`
text is a failure of the remote side, whatever the status; with any other value the status
decides.
-/
namespace UiRunner.WebDriver

open Device

/-- A failure that the remote side describes. -/
structure RemoteError where
  error : String
  message : String := ""
deriving DecidableEq, Repr

namespace RemoteError

def text (e : RemoteError) : String :=
  if e.message.isEmpty then e.error else e.error ++ ": " ++ e.message

def isNoSuchElement (e : RemoteError) : Bool := e.error == "no such element"

/-- A value that describes an error: its message, if there is one, is a text as well. -/
def ofValue? (v : Json) : Option RemoteError :=
  match v.field? "error", v.field? "message" with
  | some (.str error), none => some { error }
  | some (.str error), some (.str message) => some { error, message }
  | _, _ => none

end RemoteError

/-- The value of a reply. A reply that is no object is its own value. -/
def valueOf : Json → Json
  | .obj fields => (Json.Fields.get? fields "value").getD .null
  | v => v

def parseReply (success : Bool) (body : Json) : Except RemoteError Json :=
  let v := valueOf body
  match RemoteError.ofValue? v with
  | some e => .error e
  | none => if success then .ok v else .error ⟨"unknown error", v.compact⟩

def elementKey : String := "element-6066-11e4-a52e-4f735466cecf"

/-- An older key, which some servers still send. -/
def olderElementKey : String := "ELEMENT"

def element? (v : Json) : Option ElementId :=
  ((v.field? elementKey).or (v.field? olderElementKey)).bind Json.str?

/-- The session id of a reply, inside its value or, from older servers, beside it. -/
def sessionId? (body : Json) : Option String :=
  (((body.field? "value").bind (·.field? "sessionId")).or (body.field? "sessionId")).bind Json.str?

def newSessionBody (capabilities : Json.Fields) : Json :=
  .obj [("capabilities", .obj [("alwaysMatch", .obj capabilities), ("firstMatch", .arr [.obj []])])]

/-- A body is read as JSON; one that is none is a text. -/
def bodyOf (text : String) : Json := (Json.read? text).getD (.str text)

/-! ## Commands -/

/-- The method, the path below the session, and the body of a command. -/
structure Route where
  method : Http.Method
  path : String
  body : Option Json := none

def elementPath (e : ElementId) (suffix : String) : String := "/element/" ++ e ++ "/" ++ suffix

def route : Command → Route
  | .find q =>
    ⟨.post, "/element", some (.obj [("using", .str q.strategy), ("value", .str q.value)])⟩
  | .displayed e => ⟨.get, elementPath e "displayed", none⟩
  | .enabled e => ⟨.get, elementPath e "enabled", none⟩
  | .click e => ⟨.post, elementPath e "click", some (.obj [])⟩
  | .typeKeys e text => ⟨.post, elementPath e "value", some (.obj [("text", .str text)])⟩
  | .text e => ⟨.get, elementPath e "text", none⟩
  | .activate app =>
    ⟨.post, "/appium/device/activate_app", some (.obj [("appId", .str app)])⟩
  | .currentPackage => ⟨.get, "/appium/device/current_package", none⟩
  | .pressKey code =>
    ⟨.post, "/appium/device/press_keycode", some (.obj [("keycode", .nat code)])⟩
  | .screenshot => ⟨.get, "/screenshot", none⟩

/-- The picture in the value of a reply. Blanks in it do not count. -/
def picture (v : Json) : Except Error Bytes :=
  match v with
  | .str s =>
    match Text.Base64.decode (.ofList (s.toList.filter fun c => !Text.isBlank c)) with
    | .ok bytes => .ok bytes
    | .error p => .error (.driver s!"screenshot is not valid base64: {p.message}")
  | _ => .error (.driver "screenshot reply is not a string")

/-- What the value of a reply means for a command. -/
def answerOf : (c : Command) → Json → Except Error c.Answer
  | .find _, v =>
    match element? v with
    | some e => .ok (some e)
    | none => .error (.driver s!"find element reply has no element reference: {v.compact}")
  | .displayed _, v => .ok (v.bool?.getD false)
  | .enabled _, v => .ok (v.bool?.getD false)
  | .click _, _ => .ok ()
  | .typeKeys _ _, _ => .ok ()
  | .text _, v => .ok (v.str?.getD "")
  | .activate _, _ => .ok ()
  | .currentPackage, v => .ok (v.str?.getD "")
  | .pressKey _, _ => .ok ()
  | .screenshot, v => picture v

/-- What a remote failure means for a command: an element that is not there is no failure of
looking for it. -/
def failureOf (c : Command) (e : RemoteError) : Except Error c.Answer :=
  match c with
  | .find _ => if e.isNoSuchElement then .ok none else .error (.driver e.text)
  | _ => .error (.driver e.text)

end UiRunner.WebDriver
