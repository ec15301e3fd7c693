import UiRunner.Proofs.Console.Detection
import UiRunner.Proofs.Files.Growth

/-!
# Writing a capabilities file

The init command declines before it has touched anything: when there is a file already, or when the
device that is asked for cannot be told. Otherwise it makes the directory of the file and writes the
file, and changes nothing else; then only the file system can refuse.
-/
namespace UiRunner.Console

open Files Session

variable {σ : Type} {h : Host σ} {s : Settings} {o : InitOptions} {d : Desk σ} {path : Path}
  {device : Option String} {e : Error}

/-! ## The device -/

/-- The devices that adb has printed. -/
def devicesIn (output : Bytes) : List Attached := Adb.parseDevices (Bytes.decodeLossy output)

/-- What looking for a device comes to. -/
inductive Detection (h : Host σ) (s : Settings) : Except Error String → Prop where
  | missing : h.adb.find s.preflight.adb = none →
      Detection h s (.error (Adb.unreachable "not found in PATH"))
  /-- It cannot be started, does not answer in time, or fails. -/
  | failing {adb : Path} {e : Error} : h.adb.find s.preflight.adb = some adb →
      (∀ output, h.adb.run adb ≠ .exits 0 output) → h.adb.devices adb = .error e →
      Detection h s (.error e)
  | unauthorized {adb : Path} {output : Bytes} : h.adb.find s.preflight.adb = some adb →
      h.adb.run adb = .exits 0 output → (∀ a ∈ devicesIn output, a.isAuthorized = false) →
      Detection h s (.error (.unreachable "Android device" "no authorized device found"))
  | found {adb : Path} {output : Bytes} {serial : String} :
      h.adb.find s.preflight.adb = some adb → h.adb.run adb = .exits 0 output →
      Adb.firstAuthorized? (devicesIn output) = some serial → Detection h s (.ok serial)

/-- The device for the file: the detected one if one is to be detected, or else the given one, if
there is one. -/
inductive Chooses (h : Host σ) (s : Settings) (o : InitOptions) : Option String → Prop where
  | detected {serial : String} : o.detect = true → Detection h s (.ok serial) →
      Chooses h s o (some serial)
  | given : o.detect = false → Chooses h s o o.device

/-- A file that exists is replaced only by force. -/
def Allowed (o : InitOptions) (files : Tree) (path : Path) : Prop :=
  files.exists_ path = true → o.force = true

/-- A place on the way to the directory of a file. -/
def LeadsTo (files : Tree) (path : Path) (place : Place) : Prop :=
  ∃ dir, path.parent? = some dir ∧ files.OnWay dir place

/-- How the command goes when it does not decline. -/
structure Proceeds (h : Host σ) (s : Settings) (o : InitOptions) (d : Desk σ) (path : Path)
    (device : Option String) (made : Tree) (verdict : Verdict) (after : Desk σ) : Prop where
  placed : h.capabilitiesFile s = .ok path
  allowed : Allowed o d.files path
  chosen : Chooses h s o device
  grown : Tree.Grown (LeadsTo made path) d.files made
  ends : (∃ p : Problem, verdict = .error (.io p.message) ∧ after.files = made ∧
      (writeInto d.files path (capabilitiesText device)).1 = .error p) ∨
    verdict = .ok true ∧ made.write path (Bytes.ofText (capabilitiesText device)) = .ok after.files

theorem Proceeds.changed {made : Tree} {verdict : Verdict} {after : Desk σ}
    (go : Proceeds h s o d path device made verdict after) {place : Place}
    (changed : after.files.get? place ≠ d.files.get? place) :
    d.files.get? place = none ∧ after.files.get? place = some .dir ∧
        LeadsTo after.files path place ∨
      verdict = .ok true ∧
        ∃ content, after.files.locate path = .ok (place, some (.file content)) := by
  obtain ⟨p, -, same, -⟩ | ⟨success, written⟩ := go.ends
  · rw [same] at changed ⊢
    exact .inl ((go.grown.get? place).resolve_left changed)
  · obtain ⟨free, dir, leads⟩ | located := go.grown.changed_write written changed
    · obtain ⟨parent, found, onWay⟩ := leads
      exact .inl ⟨free, dir, parent, found, onWay.write written⟩
    · exact .inr ⟨success, _, located⟩

end UiRunner.Console
