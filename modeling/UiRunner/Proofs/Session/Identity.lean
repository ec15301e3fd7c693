import UiRunner.Session.Check

/-!
# The device of a session

The capabilities name a device in one of two places. Validation and the device check read this name
on their own; they agree on when there is one. With a name the device check wants this device, and
without one any authorized device would do, but such capabilities are not valid.
-/
namespace UiRunner.Session

/-! ## The device check -/

namespace Check

variable {devices : List Attached} {i : Adb.Installation} {adb : Option Path} {c : Config}
  {serial : String}

/-- The device check passes when the first line about the device calls it authorized. -/
theorem judgeDevices_eq_ok_iff :
    judgeDevices (some serial) devices = .ok () ↔
      ∃ a, devices.find? (·.serial == serial) = some a ∧ a.isAuthorized := by
  rw [judgeDevices]
  cases found : devices.find? (·.serial == serial) with
  | none => simp
  | some a => cases state : a.state <;> simp [Attached.isAuthorized, state]

theorem judgeDevices_none_eq_ok_iff :
    judgeDevices none devices = .ok () ↔ ∃ a ∈ devices, a.isAuthorized := by
  rw [← List.any_eq_true, judgeDevices]
  cases devices.any (·.isAuthorized) <;> simp

/-- The device check needs an adb that lists devices. -/
theorem judgeDevice_eq_ok_iff :
    judgeDevice i adb c = .ok () ↔ ∃ path devices, i.find adb = some path ∧
      i.devices path = .ok devices ∧ judgeDevices c.deviceName? devices = .ok () := by
  rw [judgeDevice]
  cases i.find adb with
  | none => simp
  | some path => cases listed : i.devices path <;> simp [listed]

/-- The check passes if adb lists this device and calls it authorized where it lists it first. -/
def Wants (c : Config) (serial : String) : Prop :=
  ∀ (i : Adb.Installation) (adb : Option Path),
    (Check.device adb).verdict i c = .ok () ↔
      ∃ path devices, i.find adb = some path ∧ i.devices path = .ok devices ∧
        ∃ a, devices.find? (·.serial == serial) = some a ∧ a.isAuthorized

/-- The check passes if adb lists any authorized device. -/
def WantsAny (c : Config) : Prop :=
  ∀ (i : Adb.Installation) (adb : Option Path),
    (Check.device adb).verdict i c = .ok () ↔
      ∃ path devices, i.find adb = some path ∧ i.devices path = .ok devices ∧
        ∃ a ∈ devices, a.isAuthorized

theorem wants_of_named (named : c.deviceName? = some serial) : Wants c serial := by
  intro i adb
  rw [verdict, judgeDevice_eq_ok_iff, named]
  simp only [judgeDevices_eq_ok_iff]

theorem wantsAny_of_unnamed (unnamed : c.deviceName? = none) : WantsAny c := by
  intro i adb
  rw [verdict, judgeDevice_eq_ok_iff, unnamed]
  simp only [judgeDevices_none_eq_ok_iff]

end Check

/-! ## Capabilities -/

namespace Config

variable {c : Config} {name : String}

/-- The device is named by the first of its capabilities that is there, whatever it holds. -/
theorem rawDevice_eq (c : Config) : c.rawDevice =
    (c.capabilities.get? "appium:deviceName").or (c.capabilities.get? "deviceName") := by
  rw [rawDevice, deviceKeys, List.findSome?_cons, List.findSome?_cons, List.findSome?_nil]
  cases c.capabilities.get? "appium:deviceName" <;>
    cases c.capabilities.get? "deviceName" <;> rfl

/-- A new session has the given capabilities, and a platform if they name none. -/
theorem get?_new (serverUrl : String) (capabilities : Json.Fields) (key : String) :
    (new serverUrl capabilities).capabilities.get? key =
      (capabilities.get? key).or
        (if key = "platformName" then some (.str "Android") else none) := by
  rw [new]
  split
  · rename_i platform given
    by_cases same : key = "platformName"
    · simp [same, given]
    · simp [same]
  · rename_i absent
    by_cases same : key = "platformName"
    · simp [same, absent, Json.Fields.get?_insert]
    · simp [same, Json.Fields.get?_insert]

theorem str?_eq_some_iff {v : Option Json} {s : String} :
    v.bind Json.str? = some s ↔ v = some (.str s) := by
  rcases v with _ | (_ | _ | _ | _ | _ | _) <;> simp [Json.str?]

/-- A usable name is a text that is neither blank nor the placeholder, without the blanks around. -/
theorem deviceName?_eq_some_iff : c.deviceName? = some name ↔
    ∃ given, c.rawDevice = some (.str given) ∧ Text.trim given = name ∧ name ≠ "" ∧
      name ≠ placeholder := by
  have written : (c.rawDevice.bind Json.str?).map Text.trim = some name ↔
      ∃ given, c.rawDevice = some (.str given) ∧ Text.trim given = name := by
    simp only [Option.map_eq_some_iff, str?_eq_some_iff]
  have usable : c.deviceName? = some name ↔
      (c.rawDevice.bind Json.str?).map Text.trim = some name ∧ name ≠ "" ∧ name ≠ placeholder := by
    rw [deviceName?]
    cases (c.rawDevice.bind Json.str?).map Text.trim with
    | none => simp
    | some written =>
      simp only [Bool.or_eq_true, String.isEmpty_iff, beq_iff_eq]
      split <;> grind
  rw [usable, written]
  grind

theorem isBlankText_platform_iff :
    Text.isBlankText (((c.capabilities.get? "platformName").bind Json.str?).getD "") = false ↔
      ∃ platform, c.capabilities.get? "platformName" = some (.str platform) ∧
        Text.isBlankText platform = false := by
  simp only [← str?_eq_some_iff]
  cases (c.capabilities.get? "platformName").bind Json.str? with
  | none => simp [Text.isBlankText]
  | some platform => simp

/-- Capabilities are valid if they name a platform, and a device that the device check can want. -/
theorem validate_eq_ok_iff : c.validate = .ok () ↔
    (∃ platform, c.capabilities.get? "platformName" = some (.str platform) ∧
      Text.isBlankText platform = false) ∧ ∃ name, c.deviceName? = some name := by
  rw [← isBlankText_platform_iff, validate, deviceName?]
  cases Text.isBlankText (((c.capabilities.get? "platformName").bind Json.str?).getD "") with
  | true => simp
  | false =>
    cases (c.rawDevice.bind Json.str?).map Text.trim with
    | none => simp
    | some name =>
      have written : placeholder ≠ "" := by decide
      by_cases empty : name = ""
      · simp [empty]
      · by_cases real : name = placeholder <;> simp [empty, real, written]

/-- What validation and the device check make of a session. -/
structure ReadAlike (c : Config) : Prop where
  valid_iff : c.validate = .ok () ↔
    (∃ platform, c.capabilities.get? "platformName" = some (.str platform) ∧
      Text.isBlankText platform = false) ∧ ∃ name, c.deviceName? = some name
  /-- The first of the two capabilities that is there decides. -/
  named_iff : ∀ name, c.deviceName? = some name ↔ ∃ given,
    (c.capabilities.get? "appium:deviceName").or (c.capabilities.get? "deviceName") =
      some (.str given) ∧ Text.trim given = name ∧ name ≠ "" ∧ name ≠ placeholder
  wanted : ∀ name, c.deviceName? = some name → Check.Wants c name
  /-- Only a session that is not valid is checked for any authorized device. -/
  unnamed : c.deviceName? = none → c.validate ≠ .ok () ∧ Check.WantsAny c

/-- **Both readers of the device agree.** Whatever the capabilities hold, they are valid exactly if
the platform is a text that is not blank and there is a device for the device check to want. This
is the trimmed text of the first capability that names it, neither empty nor the placeholder, and
the check passes only if adb lists it and calls it authorized. -/
theorem readers_agree (serverUrl : String) (capabilities : Json.Fields) :
    (new serverUrl capabilities).ReadAlike ∧
    ∀ key, (new serverUrl capabilities).capabilities.get? key =
      (capabilities.get? key).or
        (if key = "platformName" then some (.str "Android") else none) := by
  refine ⟨⟨validate_eq_ok_iff, fun name => ?_, fun name => Check.wants_of_named, fun unnamed => ?_⟩,
    get?_new serverUrl capabilities⟩
  · rw [deviceName?_eq_some_iff, rawDevice_eq]
  · refine ⟨fun valid => ?_, Check.wantsAny_of_unnamed unnamed⟩
    obtain ⟨-, name, named⟩ := validate_eq_ok_iff.1 valid
    cases unnamed.symm.trans named

/-- A value that is no text hides the name that follows it. -/
example : (new "" [("appium:deviceName", .nat 5), ("deviceName", .str "A")]).deviceName? = none ∧
    (new "" [("deviceName", .str " A ")]).deviceName? = some "A" := by
  decide +kernel

end Config

end UiRunner.Session
