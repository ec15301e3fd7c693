import UiRunner.Run.World
import UiRunner.WebDriver.Wire

/-!
# The WebDriver client

A run whose calls are requests to a WebDriver server. Opening a session, each command, and ending
the session are one request each, and no request is made twice.
-/
namespace UiRunner.WebDriver

open Decimal Device Http Run Session

/-- How many seconds the client waits. -/
structure Patience where
  connect : Nat := 60
  request : Nat := 30
deriving DecidableEq, Repr

/-- A session as the client knows it. -/
structure Live where
  base : String
  id : SessionId
deriving DecidableEq, Repr

/-- The address of the session, or of something below it. -/
def Live.address (l : Live) (path : String) : String := l.base ++ "/session/" ++ l.id ++ path

/-- The state of the client, and that of the network it talks to. -/
structure Client (σ : Type) where
  net : σ
  live : Option Live := none
  /-- The requests that were made and what came of them, the last one first. -/
  history : List Sent := []

variable {σ : Type}

/-- The requests that were made, the last one first. -/
def Client.requests (s : Client σ) : List Http.Request := s.history.map (·.request)

/-- A server address without slashes at its end. -/
def baseOf (address : String) : String :=
  .ofList (Text.dropTrailing (· == '/') address.toList)

def agent : String := "uitest/0.1.0"

/-- Makes a request. -/
def exchange (net : Network σ) (r : Http.Request) (s : Client σ) : Outcome × Nat × Client σ :=
  let (outcome, takes, after) := net.send r s.net
  (outcome, takes, { s with net := after, history := ⟨r, outcome⟩ :: s.history })

/-! ## The status check -/

def statusRequest (config : Config) : Http.Request where
  method := .get
  address := baseOf config.serverUrl ++ "/status"
  patience := Check.serverPatience

def statusVerdict (address : String) : Outcome → Except Error Unit
  | .error .timedOut =>
    .error (.unreachable "Automation server"
      s!"no answer from {address} within {natText Check.serverPatience}s")
  | .error _ =>
    .error (.unreachable "Automation server"
      s!"cannot connect to {address}. Start the server with 'appium'")
  | .ok r =>
    if r.status.isSuccess then .ok ()
    else
      .error (.unreachable "Automation server"
        s!"{address} responded with status {r.status.text}")

/-- Asks the server for its status. -/
def checkStatus (net : Network σ) (config : Config) (s : Client σ) :
    Except Error Unit × Nat × Client σ :=
  let request := statusRequest config
  let (outcome, takes, s) := exchange net request s
  (statusVerdict request.address outcome, takes, s)

/-! ## Opening a session -/

def openRequest (p : Patience) (config : Config) : Http.Request where
  method := .post
  address := baseOf config.serverUrl ++ "/session"
  agent := agent
  body := newSessionBody config.capabilities
  patience := p.connect

/-- Why a session could not be opened when there was no reply. -/
def openFailure (p : Patience) (base : String) : Failure → Error
  | .timedOut => .connectionTimeout base p.connect
  | .refused _ => .connectionRefused base
  | f => .sessionRejected f.message

/-- The id of the new session. -/
def openVerdict (p : Patience) (base : String) : Outcome → Except Error SessionId
  | .error f => .error (openFailure p base f)
  | .ok r =>
    match r.text? with
    | none => .error (.sessionRejected Response.cutMessage)
    | some text =>
      let body := bodyOf text
      if r.status.isSuccess then
        match sessionId? body with
        | some id => .ok id
        | none => .error (.sessionRejected s!"reply carried no session id: {body.compact}")
      else
        match parseReply false body with
        | .error e => .error (.sessionRejected e.text)
        | .ok v => .error (.sessionRejected v.compact)

def connect (net : Network σ) (p : Patience) (config : Config) (s : Client σ) :
    Except Error SessionId × Nat × Client σ :=
  let base := baseOf config.serverUrl
  let (outcome, takes, s) := exchange net (openRequest p config) s
  match openVerdict p base outcome with
  | .ok id => (.ok id, takes, { s with live := some ⟨base, id⟩ })
  | .error e => (.error e, takes, s)

/-! ## Commands in a session -/

def commandRequest (p : Patience) (l : Live) (c : Command) : Http.Request where
  method := (route c).method
  address := l.address (route c).path
  agent := agent
  body := (route c).body
  patience := p.request

def commandVerdict (p : Patience) (c : Command) : Outcome → Except Error c.Answer
  | .error .timedOut => .error (.timeout p.request)
  | .error f => .error (.driver s!"{(route c).method.name} {(route c).path} failed: {f.message}")
  | .ok r =>
    match r.text? with
    | none => .error (.driver s!"Failed to read reply to {(route c).path}: {Response.cutMessage}")
    | some text =>
      match parseReply r.status.isSuccess (bodyOf text) with
      | .ok v => answerOf c v
      | .error e => failureOf c e

def noSession : Error := .driver "no session"

def command (net : Network σ) (p : Patience) (c : Command) (s : Client σ) :
    Except Error c.Answer × Nat × Client σ :=
  match s.live with
  | none => (.error noSession, 0, s)
  | some l =>
    let (outcome, takes, s) := exchange net (commandRequest p l c) s
    (commandVerdict p c outcome, takes, s)

/-! ## Ending a session -/

def quitRequest (p : Patience) (l : Live) : Http.Request where
  method := .delete
  address := l.address ""
  agent := agent
  patience := p.request

def quitVerdict : Outcome → Except Error Unit
  | .error f => .error (.driver s!"Failed to delete session: {f.message}")
  | .ok r =>
    if r.status.isSuccess then .ok ()
    else .error (.driver s!"Delete session returned status {r.status.text}")

/-- Ends the session. -/
def quit (net : Network σ) (p : Patience) (s : Client σ) : Except Error Unit × Nat × Client σ :=
  match s.live with
  | none => (.error noSession, 0, s)
  | some l =>
    let (outcome, takes, s) := exchange net (quitRequest p l) s
    (quitVerdict outcome, takes, s)

/-! ## The client as the outside of a run -/

/-- The outcome of an exchange as a reaction. -/
def reaction {α : Type} (x : α × Nat × Client σ) : Reaction (Client σ) α :=
  { begun := x.2.2, takes := some x.2.1, finish := fun s => (x.1, s) }

def environment (net : Network σ) (p : Patience) (adb : Adb.Installation) :
    Environment (Client σ) where
  command _ c s :=
    -- A reply has to come from the network first.
    { reaction (match command net p c s with | (a, rest) => (.ok a, rest)) with
      atOnce := s.live.isNone }
  check _ c config s := reaction (match c with
    | .server => match checkStatus net config s with | (a, rest) => (.ok a, rest)
    | c => (.ok (c.verdict adb config), c.takes adb, s))
  connect _ config s := reaction (match connect net p config s with | (a, rest) => (.ok a, rest))
  quit _ s := reaction (quit net p s)

end UiRunner.WebDriver
