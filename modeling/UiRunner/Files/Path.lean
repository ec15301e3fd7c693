import UiRunner.Text.Utf8

/-!
# Paths

Paths are texts with slashes. A path is absolute when it begins with one. Repeated and closing
slashes, and single dots behind a slash, do not count.
-/
namespace UiRunner

abbrev Path := String

namespace Path

def isAbsolute (p : Path) : Bool := p.toList.head? == some '/'

/-- A path taken relative to a directory. -/
def join (dir p : Path) : Path :=
  if p.isAbsolute || dir.isEmpty then p
  else if dir.toList.getLast? == some '/' then dir ++ p
  else dir ++ "/" ++ p

/-- The reversed characters without what does not count at the end. -/
def trimReversed : Nat → List Char → List Char
  | 0, cs => cs
  | fuel + 1, '/' :: c :: cs => trimReversed fuel (c :: cs)
  | fuel + 1, '.' :: '/' :: cs => trimReversed fuel ('/' :: cs)
  | _, cs => cs

/-- The last component, and the path before it, of a path given in reverse. -/
def splitReversed (cs : List Char) : List Char × List Char :=
  let name := cs.takeWhile (· != '/')
  let rest := cs.dropWhile (· != '/')
  (name.reverse, (trimReversed rest.length rest).reverse)

/-- The path in reverse without slashes at its end. -/
def significant (p : Path) : List Char := trimReversed p.length p.toList.reverse

/-- The directory that holds the path; the root and the empty path have none. -/
def parent? (p : Path) : Option Path :=
  match significant p with
  | [] | ['/'] => none
  | cs => some (.ofList (splitReversed cs).2)

/-- The last component, if it is a name. -/
def fileName? (p : Path) : Option String :=
  match significant p with
  | [] | ['/'] => none
  | cs =>
    let name := (splitReversed cs).1
    if name == ['.'] || name == ['.', '.'] then none else some (.ofList name)

/-- What follows the last dot of the name, unless the name only begins with one. -/
def extension? (p : Path) : Option String :=
  match fileName? p with
  | none => none
  | some name =>
    let cs := name.toList.reverse
    match cs.dropWhile (· != '.') with
    | [] | ['.'] => none
    | _ => some (.ofList (cs.takeWhile (· != '.')).reverse)

example : parent? "a/b/c.log" = some "a/b" ∧ parent? "c.log" = some "" := by decide +kernel
example : parent? "/c" = some "/" ∧ parent? "/" = none := by decide +kernel
example : extension? "x/c.yaml" = some "yaml" ∧ extension? ".yaml" = none := by decide +kernel

end Path

end UiRunner
