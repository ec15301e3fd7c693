import UiRunner.Http.Status
import UiRunner.Http.Url
import UiRunner.Json.Value

/-!
# Exchanges

One request to a server and what comes of it. Nobody need listen at an address, a server may take
the request and never answer, and an answer can end before its announced length.
-/
namespace UiRunner.Http

open Decimal

inductive Method where
  | get
  | post
  | delete
deriving DecidableEq, Repr

def Method.name : Method → String
  | .get => "GET"
  | .post => "POST"
  | .delete => "DELETE"

structure Request where
  method : Method
  /-- The address as it was put together, before it is brought into its usual form. -/
  address : String
  agent : Option String := none
  body : Option Json := none
  /-- How many seconds an answer is waited for. -/
  patience : Nat
deriving Repr

/-- What a request to a usable address meets. -/
inductive Arrival where
  /-- Nobody listens. -/
  | refused
  /-- The connection is closed without an answer. -/
  | closed
  /-- There is never an answer. -/
  | silent
  | answered (status : Status) (body : Bytes) (cut : Bool)
deriving DecidableEq, Repr

/-- Why there is no answer. -/
inductive Failure where
  /-- The address cannot be used; it is known if it could be read. -/
  | unusable (url : Option Url)
  | timedOut
  | refused (url : Url)
  | closed (url : Url)
deriving DecidableEq, Repr

def Failure.message : Failure → String
  | .unusable none => "builder error"
  | .unusable (some u) => "builder error for url (" ++ u.text ++ ")"
  | .timedOut => "operation timed out"
  | .refused u | .closed u => "error sending request for url (" ++ u.text ++ ")"

structure Response where
  status : Status
  body : Bytes
  /-- The body ended too early. -/
  cut : Bool
deriving DecidableEq, Repr

/-- The text of a body that came whole. What is no text in it is replaced. -/
def Response.text? (r : Response) : Option String :=
  if r.cut then none else some (Bytes.decodeMarked r.body)

/-- What is said about a body that did not. -/
def Response.cutMessage : String := "error decoding response body"

abbrev Outcome := Except Failure Response

/-- A request that was made, and what came of it. -/
structure Sent where
  request : Request
  outcome : Outcome
deriving Repr

/-- Whoever listens at the addresses of a network. -/
structure Network (σ : Type) where
  meet : Url → Request → σ → Arrival × σ

/-- A network in which nobody listens. -/
def Network.deserted {σ : Type} : Network σ := ⟨fun _ _ s => (.refused, s)⟩

/-- Sends a request: the outcome, how many milliseconds it takes, and the state of the network. An
address is looked at before the patience, and the patience before the server. -/
def Network.send {σ : Type} (net : Network σ) (r : Request) (s : σ) : Outcome × Nat × σ :=
  match Url.read? r.address with
  | none => (.error (.unusable none), 0, s)
  | some u =>
    if !u.isWeb then (.error (.unusable (some u)), 0, s)
    else if r.patience = 0 then (.error .timedOut, 0, s)
    else
      match net.meet u r s with
      | (.refused, s) => (.error (.refused u), 0, s)
      | (.closed, s) => (.error (.closed u), 0, s)
      | (.silent, s) => (.error .timedOut, r.patience * 1000, s)
      | (.answered status body cut, s) => (.ok ⟨status, body, cut⟩, 0, s)

end UiRunner.Http
