import UiRunner.Http.Host
import UiRunner.Text.Blank

/-!
# Web addresses

An address is read into its parts and written back in its usual form: scheme and host in small
letters, no number behind the host that goes without saying, dots in the path resolved, and
everything percent-encoded that cannot stand for itself. Only addresses with a host can be asked for
anything.
-/
namespace UiRunner.Http

open Decimal Host

structure Url where
  scheme : String
  /-- Name and password with the sign behind them. -/
  user : String := ""
  host : Option String := none
  portNumber : Option Nat := none
  path : String := ""
  query : Option String := none
  fragment : Option String := none
deriving DecidableEq, Repr

namespace Url

/-- The schemes of the web, each with the number that goes without saying. -/
def standardPorts : List (String × Nat) :=
  [("http", 80), ("https", 443), ("ws", 80), ("wss", 443), ("ftp", 21)]

def isStandard (scheme : String) : Bool := standardPorts.any (·.1 == scheme)

def text (u : Url) : String :=
  u.scheme ++ ":" ++
    (match u.host with
      | some h => "//" ++ u.user ++ h ++ ((u.portNumber.map fun p => ":" ++ natText p).getD "")
      | none => if "//".isPrefixOf u.path then "/." else "") ++
    u.path ++ ((u.query.map ("?" ++ ·)).getD "") ++ ((u.fragment.map ("#" ++ ·)).getD "")

/-! ## Percent-encoding -/

def isControl (c : Char) : Bool := c.toNat < 0x20 || c.toNat > 0x7e

def encodedInFragment (c : Char) : Bool := isControl c || c ∈ [' ', '\x22', '<', '>', '\x60']

def encodedInQuery (standard : Bool) (c : Char) : Bool :=
  isControl c || c ∈ [' ', '\x22', '#', '<', '>'] || (standard && c == '\x27')

def encodedInPath (c : Char) : Bool := encodedInFragment c || c ∈ ['#', '?', '\x7b', '\x7d']

def encodedInUser (c : Char) : Bool :=
  encodedInPath c || c ∈ ['/', ':', ';', '=', '@', '[', '\\', ']', '^', '|']

def percentByte (b : UInt8) : String := "%" ++ Text.upperAscii (Bytes.toHex [b])

def encode (encoded : Char → Bool) (cs : List Char) : String :=
  String.join (cs.map fun c =>
    if encoded c then String.join ((Bytes.ofText c.toString).map percentByte) else c.toString)

/-! ## Reading -/

def isLetter (c : Char) : Bool := c.isAlpha

/-- The scheme in small letters, and what follows its colon. -/
def scheme? (cs : List Char) : Option (String × List Char) :=
  match cs with
  | c :: _ =>
    let name := cs.takeWhile fun c => c.isAlphanum || c == '+' || c == '-' || c == '.'
    match cs.drop name.length with
    | ':' :: rest => if isLetter c then some (Text.lowerAscii (.ofList name), rest) else none
    | _ => none
  | [] => none

/-- Blanks and controls around an address, and line breaks and tabs in it, do not count. -/
def clean (s : String) : List Char :=
  let outer (c : Char) := c.toNat ≤ 0x20
  (Text.dropTrailing outer (s.toList.dropWhile outer)).filter fun c => c ∉ ['\t', '\n', '\r']

/-- Splits in front of the first character of a class. -/
def splitAt (p : Char → Bool) (cs : List Char) : List Char × List Char :=
  (cs.takeWhile fun c => !p c, cs.dropWhile fun c => !p c)

/-- What stands before the last at-sign, and what after it. -/
def splitUser (cs : List Char) : Option (List Char) × List Char :=
  let after := (cs.reverse.takeWhile (· != '@')).reverse
  if after.length = cs.length then (none, cs)
  else (some (cs.take (cs.length - after.length - 1)), after)

def userText (cs : List Char) : String :=
  let (name, password) := splitAt (· == ':') cs
  let password := password.drop 1
  if name.isEmpty && password.isEmpty then ""
  else encode encodedInUser name ++
    (if password.isEmpty then "" else ":" ++ encode encodedInUser password) ++ "@"

/-- The host, and what follows from its colon on. Colons in square brackets belong to the host. -/
def splitPort (cs : List Char) : List Char × List Char :=
  if cs.head? == some '[' then
    let (inner, rest) := splitAt (· == ']') cs
    (inner ++ rest.take 1, rest.drop 1)
  else splitAt (· == ':') cs

/-- The number behind the colon, within 16 bits; none where none is needed. -/
def portNumber? (scheme : String) (cs : List Char) : Option (Option Nat) :=
  match cs with
  | [] | [':'] => some none
  | ':' :: digits =>
    if digits.all isDigit then
      match digitsValue? 10 digits with
      | some n =>
        if n > 65535 then none
        else if standardPorts.contains (scheme, n) then some none
        else some (some n)
      | none => none
    else none
  | _ => none

def isDot (segment : List Char) : Bool :=
  Text.lowerAscii (.ofList segment) ∈ [".", "%2e"]

def isDotPair (segment : List Char) : Bool :=
  Text.lowerAscii (.ofList segment) ∈ ["..", ".%2e", "%2e.", "%2e%2e"]

/-- Resolves the dots among the segments behind the first slash. -/
def resolveDots (done : List (List Char)) : List (List Char) → List (List Char)
  | [] => done
  | [last] =>
    if isDotPair last then done.dropLast ++ [[]]
    else if isDot last then done ++ [[]]
    else done ++ [last]
  | segment :: rest =>
    if isDotPair segment then resolveDots done.dropLast rest
    else if isDot segment then resolveDots done rest
    else resolveDots (done ++ [segment]) rest

def pathText (standard : Bool) (cs : List Char) : String :=
  if cs.isEmpty then (if standard then "/" else "")
  else
    let cs := if standard then cs.map fun c => if c == '\\' then '/' else c else cs
    let segments := resolveDots [] ((if cs.head? == some '/' then cs.drop 1 else cs).splitOn '/')
    "/" ++ "/".intercalate (segments.map (encode encodedInPath))

def withTail (u : Url) (standard : Bool) (query fragment : List Char) : Url :=
  { u with
    query := if query.isEmpty then none else some (encode (encodedInQuery standard) (query.drop 1))
    fragment :=
      if fragment.isEmpty then none else some (encode encodedInFragment (fragment.drop 1)) }

/-- The host of another scheme keeps its letters. -/
def plainHost? (cs : List Char) : Option String :=
  if cs.head? == some '[' then host? cs
  else if cs.any isForbidden then none
  else some (encode isControl cs)

/-- Reads what follows the slashes before a host. -/
def authority? (scheme : String) (standard : Bool) (cs : List Char) : Option Url := do
  let (authority, path) := splitAt (fun c => c == '/' || (standard && c == '\\')) cs
  let (user, rest) := splitUser authority
  let (name, digits) := splitPort rest
  let portNumber ← portNumber? scheme digits
  if name.isEmpty && (standard || user.isSome || !digits.isEmpty) then none
  else
    let host ← if standard then host? name else plainHost? name
    some { scheme, user := (user.map userText).getD "", host, portNumber
           path := pathText standard path }

/-- Reads an address; a relative one is none. -/
def read? (s : String) : Option Url := do
  let (scheme, rest) ← scheme? (clean s)
  let (rest, fragment) := splitAt (· == '#') rest
  let (rest, query) := splitAt (· == '?') rest
  let standard := isStandard scheme
  let url ←
    if standard then authority? scheme true (rest.dropWhile fun c => c == '/' || c == '\\')
    else
      match rest with
      | '/' :: '/' :: after => authority? scheme false after
      | '/' :: _ => some { scheme, path := pathText false rest }
      | _ => some { scheme, path := encode isControl rest }
  some (url.withTail standard query fragment)

/-- Whether requests can be made to the address. -/
def isWeb (u : Url) : Bool := u.host.isSome && (u.scheme == "http" || u.scheme == "https")

example : (read? "HTTP://Host:80/a b/../ü?x#y").map text = some "http://host/%C3%BC?x#y" := by
  decide +kernel
example : (read? "http:/session").map text = some "http://session/" := by decide +kernel
example : (read? "nope/session").isNone ∧ (read? "http://h:99999/").isNone := by decide +kernel

end Url

end UiRunner.Http
