import UiRunner.Decimal.Numeral

/-!
# Errors

What can go wrong, by cause. Every error has a code for machines, a message for people, and a
description that puts the code before the message. All errors but one stop a run.
-/
namespace UiRunner

open Decimal

inductive Error where
  | configInvalid (problem : String)
  | configUnreadable (problem : String)
  | unreachable (target hint : String)
  | connectionRefused (url : String)
  | connectionTimeout (url : String) (secs : Nat)
  | sessionRejected (reason : String)
  | sessionAlreadyActive
  | actionNotFound (name : String)
  | parameterMismatch (action reason : String)
  | actionRuntimeFailure (action reason : String)
  | invalidSelectorKind (kind : String)
  | invalidSelector (problem : String)
  | driver (problem : String)
  | timeout (secs : Nat)
  | io (problem : String)
  | fileRead (path problem : String)
  | json (problem : String)
  | internal (problem : String)
deriving DecidableEq, Repr

namespace Error

def code : Error → String
  | .configInvalid _ | .configUnreadable _ => "ConfigInvalid"
  | .unreachable .. => "EnvironmentUnreachable"
  | .connectionRefused _ => "ConnectionRefused"
  | .connectionTimeout .. => "ConnectionTimeout"
  | .sessionRejected _ => "SessionRejected"
  | .sessionAlreadyActive => "SessionAlreadyActive"
  | .actionNotFound _ => "ActionNotFound"
  | .parameterMismatch .. => "ParameterMismatch"
  | .actionRuntimeFailure .. => "ActionRuntimeFailure"
  | .invalidSelectorKind _ => "InvalidSelectorKind"
  | .invalidSelector _ => "InvalidSelector"
  | .driver _ => "DriverError"
  | .timeout _ => "Timeout"
  | .io _ | .fileRead .. => "IoError"
  | .json _ => "JsonError"
  | .internal _ => "InternalError"

def message : Error → String
  | .configInvalid problem => "Invalid configuration: " ++ problem
  | .configUnreadable problem => "Invalid configuration file: " ++ problem
  | .unreachable target hint => target ++ " is not reachable: " ++ hint
  | .connectionRefused url =>
    "Connection refused by automation server at " ++ url ++ ". Is the server running?"
  | .connectionTimeout url secs =>
    "Timed out after " ++ natText secs ++ " seconds connecting to automation server at " ++ url
  | .sessionRejected reason => "Automation server rejected the session: " ++ reason
  | .sessionAlreadyActive =>
    "An automation session is already active. Release it before acquiring another"
  | .actionNotFound name => "unknown action '" ++ name ++ "'"
  | .parameterMismatch action reason => "bad parameters for '" ++ action ++ "': " ++ reason
  | .actionRuntimeFailure action reason =>
    "action '" ++ action ++ "' could not complete: " ++ reason
  | .invalidSelectorKind kind => "invalid selector kind '" ++ kind ++ "'"
  | .invalidSelector problem => "invalid selector: " ++ problem
  | .driver problem => "Automation server error: " ++ problem
  | .timeout secs => "Operation timed out after " ++ natText secs ++ " seconds"
  | .io problem => "IO error: " ++ problem
  | .fileRead path problem => "Failed to read file '" ++ path ++ "': " ++ problem
  | .json problem => "JSON error: " ++ problem
  | .internal problem => "Internal error: " ++ problem

/-- The message with the code before it, as a run records it. -/
def describe (e : Error) : String := e.code ++ ": " ++ e.message

/-- Whether the error ends a run. An unknown action is a mistake in one step only. -/
def isFatal : Error → Bool
  | .actionNotFound _ => false
  | _ => true

end Error

end UiRunner
