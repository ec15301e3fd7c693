import UiRunner.Console.Init
import UiRunner.Proofs.Json.RoundTrip
import UiRunner.Proofs.Session.Identity

/-!
# Detecting a device

A capabilities file that was written for the first authorized device is read back as a session for
that device, and its capabilities are found in order. The device check looks at the first line about
the device only, so it passes exactly when that line calls it authorized.
-/
namespace UiRunner

open Session

/-! ## Listed devices -/

namespace Session.Adb

/-- A serial is a word: it is not empty and has no blanks. -/
theorem trim_serial_of_mem_parseDevices {output : String} {a : Attached}
    (h : a ∈ parseDevices output) : Text.trim a.serial = a.serial ∧ a.serial.isEmpty = false := by
  obtain ⟨line, -, made⟩ := List.mem_filterMap.1 h
  rw [ofLine?] at made
  split at made
  · cases made
  split at made
  · rename_i serial state rest words
    cases made
    obtain ⟨some_, visible⟩ :=
      Text.of_mem_runsWithout (words ▸ List.mem_cons_self : serial ∈ Text.wordsChars line)
    simp [Text.trim, Text.trimChars_of_forall visible, some_]
  · cases made

theorem mem_of_firstAuthorized? {devices : List Attached} {serial : String}
    (h : firstAuthorized? devices = some serial) :
    ∃ a ∈ devices, a.serial = serial ∧ a.isAuthorized := by
  obtain ⟨a, found, rfl⟩ := Option.map_eq_some_iff.1 h
  exact ⟨a, List.mem_of_find?_eq_some found, rfl, List.find?_some found⟩

end Session.Adb

/-! ## A fresh capabilities file -/

namespace Session

variable {device : Option String}

theorem readable_defaultCapabilities (device : Option String) :
    Json.Readable Json.maxDepth (defaultCapabilities device) := by
  refine .obj (by decide) (Json.Fields.sorted_ofList _) fun f hf => ?_
  have listed := Json.Fields.mem_of_mem_ofList hf
  simp only [List.mem_cons, List.not_mem_nil, or_false] at listed
  obtain rfl | rfl | rfl | rfl | rfl | rfl | rfl := listed
  · exact .str _ _
  · exact .str _ _
  · exact .str _ _
  · exact .null _
  · exact .null _
  · exact .bool _ _
  · exact .int _ (by decide) (by decide)

theorem get?_defaultCapabilities (device : Option String) :
    (defaultCapabilities device).fields.get? "platformName" = some (.str "Android") ∧
      (defaultCapabilities device).fields.get? "appium:deviceName" =
        some (.str (device.getD placeholder)) := by
  -- No name stands twice.
  constructor <;> exact (Json.Fields.get?_ofList_eq_some_iff (by simp)).2 (by simp)

/-- The session of a fresh capabilities file. -/
def freshConfig (serverUrl : String) (device : Option String) : Config :=
  ⟨serverUrl, (defaultCapabilities device).fields⟩

/-- A fresh capabilities file is read back. -/
theorem load_fresh {files files' : Files.Tree} {path : Path} {device : Option String}
    (written : files.write path (Bytes.ofText (defaultCapabilities device).pretty) = .ok files')
    (serverUrl : String) :
    Config.load serverUrl files' path = .ok (freshConfig serverUrl device) := by
  have read := Json.read?_pretty (readable_defaultCapabilities device)
  have platform : Config.new serverUrl (defaultCapabilities device).fields =
      freshConfig serverUrl device := by
    rw [Config.new, (get?_defaultCapabilities device).1]
    rfl
  simp only [Config.load, Files.Storage.readText_write written, read]
  exact congrArg Except.ok platform

theorem freshConfig_device (serverUrl : String) {serial : String}
    (trimmed : Text.trim serial = serial) (some_ : serial.isEmpty = false)
    (real : serial ≠ placeholder) :
    (freshConfig serverUrl (some serial)).deviceName? = some serial ∧
      (freshConfig serverUrl (some serial)).validate = .ok () := by
  obtain ⟨platform, device⟩ := get?_defaultCapabilities (some serial)
  have raw : (freshConfig serverUrl (some serial)).rawDevice = some (.str serial) := by
    rw [Config.rawDevice_eq, freshConfig, device]
    rfl
  have visible : Text.isBlankText "Android" = false := by decide
  have named : (freshConfig serverUrl (some serial)).deviceName? = some serial :=
    Config.deviceName?_eq_some_iff.2 ⟨serial, raw, trimmed, by simpa using some_, real⟩
  exact ⟨named, Config.validate_eq_ok_iff.2 ⟨⟨"Android", platform, visible⟩, serial, named⟩⟩

end Session

namespace Console

variable {σ : Type} {h : Host σ} {s : Settings} {o : InitOptions} {d : Desk σ} {path adb : Path}
  {output : Bytes} {serial : String} {files : Files.Tree}

theorem write_of_writeInto {files files' : Files.Tree} {text : String}
    (written : writeInto files path text = (.ok (), files')) :
    ∃ made : Files.Tree, made.write path (Bytes.ofText text) = .ok files' := by
  rw [writeInto] at written
  split at written
  · cases written
  · rename_i made _
    split at written
    · cases written
    · rename_i stored
      cases written
      exact ⟨made, stored⟩

/-- The detected device goes into the file, if the file can be written. -/
theorem init_detects (file : h.capabilitiesFile s = .ok path)
    (free : d.files.exists_ path = true → o.force = true) (detect : o.detect = true)
    (found : h.adb.find s.preflight.adb = some adb) {devices : List Attached}
    (lists : h.adb.devices adb = .ok devices) (first : Adb.firstAuthorized? devices = some serial)
    (written : writeInto d.files path (capabilitiesText (some serial)) = (.ok (), files)) :
    ∃ after, init h s o d = (.ok true, after) ∧ after.files = files ∧
      h.sessionConfig s after.files = .ok (freshConfig s.serverUrl (some serial)) := by
  have chosen : chosenDevice h s o = .ok (some serial) := by
    simp [chosenDevice, detect, detectDevice, found, lists, first, Except.map]
  have allowed : (d.files.exists_ path && !o.force) = false := by
    cases present : d.files.exists_ path with
    | false => rfl
    | true => simp [free present]
  have desk : (announce h o (some serial) d).files = d.files := by
    simp [announce, detect, Desk.printLine, Desk.print, Desk.files]
  refine ⟨((announce h o (some serial) d).setFiles files).printLine
    ("Capabilities written to " ++ path), ?_, rfl, ?_⟩
  · simp [init, file, allowed, chosen, writeCapabilities, desk, written]
  · obtain ⟨made, stored⟩ := write_of_writeInto written
    change h.sessionConfig s files = _
    simp only [Host.sessionConfig, file, Files.Storage.exists_write stored, if_true]
    exact load_fresh stored s.serverUrl

/-- **A detected device is the one that its capabilities file names.** The checks that were made
for it pass, but for the device check when adb lists the serial more than once: an earlier line
that calls the device something else decides. -/
theorem detected_device_checks (file : h.capabilitiesFile s = .ok path)
    (free : d.files.exists_ path = true → o.force = true) (detect : o.detect = true)
    (found : h.adb.find s.preflight.adb = some adb) (lists : h.adb.run adb = .exits 0 output)
    (first : Adb.firstAuthorized? (Adb.parseDevices (Bytes.decodeLossy output)) = some serial)
    (real : serial ≠ placeholder)
    (written : writeInto d.files path (capabilitiesText (some serial)) = (.ok (), files)) :
    ∃ after config, init h s o d = (.ok true, after) ∧ after.files = files ∧
      h.sessionConfig s after.files = .ok config ∧ config.deviceName? = some serial ∧
      Check.capabilities.verdict h.adb config = .ok () ∧
      ((Check.device s.preflight.adb).verdict h.adb config = .ok () ↔
        ∃ a, (Adb.parseDevices (Bytes.decodeLossy output)).find? (·.serial == serial) = some a ∧
          a.isAuthorized) := by
  have devices : h.adb.devices adb = .ok (Adb.parseDevices (Bytes.decodeLossy output)) := by
    simp [Adb.Installation.devices, lists]
  obtain ⟨after, made, stored, config⟩ := init_detects file free detect found devices first written
  obtain ⟨a, listed, rfl, -⟩ := Adb.mem_of_firstAuthorized? first
  obtain ⟨trimmed, some_⟩ := Adb.trim_serial_of_mem_parseDevices listed
  obtain ⟨named, valid⟩ := freshConfig_device s.serverUrl trimmed some_ real
  refine ⟨after, _, made, stored, config, named, valid, ?_⟩
  rw [Check.verdict, Check.judgeDevice, found]
  simp only [devices, named]
  exact Check.judgeDevices_eq_ok_iff

/-- A host on which adb prints this. -/
def listing (output : String) : Host Unit where
  adb := { onPath := some "adb", run := fun _ => .exits 0 (Bytes.ofText output) }
  network := .deserted

theorem listing_verdict (output : String) (config : Config) :
    (Check.device none).verdict (listing output).adb config =
      Check.judgeDevices config.deviceName?
        (Adb.parseDevices (Bytes.decodeLossy (Bytes.ofText output))) := rfl

def inWorkingDirectory : Settings := { capabilitiesFile := some "device.json" }

theorem writeInto_workingDirectory (text : String) :
    writeInto {} "device.json" text =
      (.ok (), { entries := [(["device.json"], .file (Bytes.ofText text))] }) := by
  rfl

theorem detected_device_checks_second_device :
    ∃ after config, init (listing "List of devices attached\nA\toffline\nB\tdevice\n")
        inWorkingDirectory { detect := true } (.clean () {}) = (.ok true, after) ∧
      config.deviceName? = some "B" ∧
      (Check.device none).verdict
        (listing "List of devices attached\nA\toffline\nB\tdevice\n").adb config = .ok () := by
  have first : Adb.firstAuthorized? (Adb.parseDevices (Bytes.decodeLossy (Bytes.ofText
      "List of devices attached\nA\toffline\nB\tdevice\n"))) = some "B" := by
    decide +kernel
  obtain ⟨after, config, made, -, -, named, -, passes⟩ := detected_device_checks
    (h := listing "List of devices attached\nA\toffline\nB\tdevice\n") (s := inWorkingDirectory)
    (o := { detect := true }) (d := .clean () {}) rfl (by decide +kernel) rfl rfl rfl first
    (by decide) (writeInto_workingDirectory _)
  exact ⟨after, config, made, named, passes.2 (by decide +kernel)⟩

/-- A device that is listed twice can be detected by its second line and fail by its first. -/
theorem detected_device_listed_twice :
    Adb.firstAuthorized? (Adb.parseDevices "List of devices attached\nA\toffline\nA\tdevice\n") =
        some "A" ∧
    ∃ after config, init (listing "List of devices attached\nA\toffline\nA\tdevice\n")
        inWorkingDirectory { detect := true } (.clean () {}) = (.ok true, after) ∧
      (listing "List of devices attached\nA\toffline\nA\tdevice\n").sessionConfig
        inWorkingDirectory after.files = .ok config ∧
      config.deviceName? = some "A" ∧
      (Check.device none).verdict (listing "List of devices attached\nA\toffline\nA\tdevice\n").adb
        config = .error (.unreachable "Device A" "adb reports it as Offline") := by
  have first : Adb.firstAuthorized? (Adb.parseDevices (Bytes.decodeLossy (Bytes.ofText
      "List of devices attached\nA\toffline\nA\tdevice\n"))) = some "A" := by
    decide +kernel
  have trimmed : Text.trim "A" = "A" := by decide
  obtain ⟨after, made, -, config⟩ := init_detects
    (h := listing "List of devices attached\nA\toffline\nA\tdevice\n") (s := inWorkingDirectory)
    (o := { detect := true }) (d := .clean () {}) rfl (by decide +kernel) rfl rfl rfl first
    (writeInto_workingDirectory _)
  obtain ⟨named, -⟩ :=
    freshConfig_device inWorkingDirectory.serverUrl trimmed (by decide) (by decide)
  refine ⟨by decide +kernel, after, _, made, config, named, ?_⟩
  rw [listing_verdict, named]
  decide +kernel

end Console

end UiRunner
