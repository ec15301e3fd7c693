import UiRunner.Directories
import UiRunner.Run.Orchestrator
import UiRunner.Toml.Reader
import UiRunner.WebDriver.Client

/-!
# Settings

What the configuration file says, section by section. Everything has a default, and what is not
known is ignored. A section may be given as a table, or as a list of its values in order.
-/
namespace UiRunner

structure Settings where
  serverUrl : String := "http://localhost:4723"
  capabilitiesFile : Option Path := none
  connectSecs : Nat := 60
  requestSecs : Nat := 30
  /-- Milliseconds between the opening of the session and the first step. -/
  settle : Nat := 2000
  stepSecs : Option Nat := none
  preflight : Session.Preflight := {}
  stopOnFailure : Bool := false
  actions : Action.Settings := {}
deriving DecidableEq, Repr

namespace Settings

/-- How the values of a section are found: by place or by name. -/
abbrev Section := Nat → String → Option Toml

def section? (root : List (String × Toml)) (name : String) : Option Section :=
  match root.lookup name with
  | none => some fun _ _ => none
  | some (.table fields) => some fun _ key => fields.lookup key
  | some (.arr items) => some fun place _ => items[place]?
  | some (.date _) => some fun _ _ => none
  | some _ => none

def text : Toml → Option String
  | .str s => some s
  | _ => none

def flag : Toml → Option Bool
  | .bool b => some b
  | _ => none

def count : Toml → Option Nat
  | .int i => if 0 ≤ i then some i.toNat else none
  | _ => none

/-- The value at a place, or its default; a value of another type is an error. -/
def valueOr {α : Type} (s : Section) (read : Toml → Option α) (place : Nat) (name : String)
    (absent : α) : Option α :=
  match s place name with
  | none => some absent
  | some v => read v

def optional {α : Type} (s : Section) (read : Toml → Option α) (place : Nat) (name : String) :
    Option (Option α) :=
  valueOr s (fun v => (read v).map some) place name none

def ofToml? (root : List (String × Toml)) : Option Settings := do
  let session ← section? root "session"
  let serverUrl ← valueOr session text 0 "server_url" "http://localhost:4723"
  let capabilitiesFile ← optional session text 1 "capabilities_file"
  let timeouts ← section? root "timeouts"
  let connectSecs ← valueOr timeouts count 0 "connect_secs" 60
  let requestSecs ← valueOr timeouts count 1 "request_secs" 30
  let settle ← valueOr timeouts count 2 "settle_ms" 2000
  let stepSecs ← optional timeouts count 3 "step_secs"
  let preflight ← section? root "preflight"
  let server ← valueOr preflight flag 0 "check_server" true
  let device ← valueOr preflight flag 1 "check_device" true
  let capabilities ← valueOr preflight flag 2 "check_config" true
  let adb ← optional preflight text 3 "adb_path"
  let run ← section? root "run"
  let stopOnFailure ← valueOr run flag 0 "stop_on_failure" false
  let actions ← section? root "actions"
  let pollInterval ← valueOr actions count 0 "poll_interval_ms" 500
  let interactionPause ← valueOr actions count 1 "interaction_pause_ms" 500
  let reportsDir ← valueOr actions text 2 "reports_dir" "reports"
  some
    { serverUrl, capabilitiesFile, connectSecs, requestSecs, settle, stepSecs
      preflight := ⟨server, device, capabilities, adb⟩, stopOnFailure
      actions := ⟨pollInterval, interactionPause, reportsDir⟩ }

def read? (s : String) : Option Settings := (Toml.read? s).bind ofToml?

/-- Reads a configuration file. -/
def loadFrom (files : Files.Tree) (path : Path) : Except Error Settings :=
  match files.readText path with
  | .error e => .error (.fileRead path e.message)
  | .ok text =>
    match read? text with
    | some s => .ok s
    | none => .error (.configUnreadable s!"{path} cannot be read")

/-- Reads the user's configuration file, if there is one. -/
def load (files : Files.Tree) (d : Directories) : Except Error Settings :=
  match d.configFile? with
  | some path => if files.exists_ path then loadFrom files path else .ok {}
  | none => .ok {}

/-- The capabilities file that is used. -/
def usedCapabilities? (s : Settings) (d : Directories) : Option Path :=
  s.capabilitiesFile.or d.capabilitiesFile?

/-! ## What a run takes from them -/

def patience (s : Settings) : WebDriver.Patience := ⟨s.connectSecs, s.requestSecs⟩

def manager (s : Settings) : Run.Manager := ⟨s.preflight.checks, .ofMillis s.settle⟩

def policy (s : Settings) : Run.Policy where
  settings := s.actions
  limit := s.stepSecs.map Span.ofSecs
  stopOnFailure := s.stopOnFailure

def orchestrator (s : Settings) (config : Session.Config) : Run.Orchestrator :=
  ⟨s.manager, config, s.policy⟩

end Settings

end UiRunner
