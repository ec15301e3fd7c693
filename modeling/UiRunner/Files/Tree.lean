import UiRunner.Files.Path

/-!
# Files

A tree of directories and files, and why an operation on it can fail.
-/
namespace UiRunner.Files

/-- Why the operating system refuses an operation. -/
inductive Problem where
  | notFound
  | permissionDenied
  | alreadyExists
  | notDirectory
  | isDirectory
  | nameTooLong
  | nulInName
  | notText
  | readOnly
  | tooManyLinks
deriving DecidableEq, Repr

def Problem.message : Problem → String
  | .notFound => "No such file or directory (os error 2)"
  | .permissionDenied => "Permission denied (os error 13)"
  | .alreadyExists => "File exists (os error 17)"
  | .notDirectory => "Not a directory (os error 20)"
  | .isDirectory => "Is a directory (os error 21)"
  | .nameTooLong => "File name too long (os error 36)"
  | .nulInName => "file name contained an unexpected NUL byte"
  | .notText => "stream did not contain valid UTF-8"
  | .readOnly => "Read-only file system (os error 30)"
  | .tooManyLinks => "Too many levels of symbolic links (os error 40)"

/-- The names on the way from the root. -/
abbrev Place := List String

inductive Node where
  | dir
  | file (content : Bytes)
deriving DecidableEq, Repr

/-- The working directory, and what exists besides the root. -/
structure Tree where
  cwd : Place := []
  entries : List (Place × Node) := []
deriving Repr

namespace Tree

def get? (t : Tree) (place : Place) : Option Node :=
  if place = [] then some .dir else t.entries.lookup place

def put (t : Tree) (place : Place) (node : Node) : Tree :=
  { t with entries := t.entries.filter (·.1 != place) ++ [(place, node)] }

theorem get?_put (t : Tree) (place other : Place) (node : Node) (h : place ≠ []) :
    (t.put place node).get? other = if other = place then some node else t.get? other := by
  obtain ⟨cwd, entries⟩ := t
  by_cases ho : other = []
  · subst ho
    simp [get?, Ne.symm h]
  · simp only [get?, put, ho, if_false]
    induction entries with
    | nil => by_cases h : other = place <;> simp [List.lookup_cons, h, beq_eq_false_iff_ne.mpr]
    | cons e rest ih =>
      obtain ⟨p, n⟩ := e
      by_cases hp : p = place
      · subst hp
        by_cases hq : other = p
        · subst hq
          simpa using ih
        · simpa [hq, List.lookup_cons, beq_eq_false_iff_ne.mpr hq] using ih
      · by_cases hq : other = p
        · subst hq
          simp [hp]
        · simpa [List.lookup_cons, hp, beq_eq_false_iff_ne.mpr hq] using ih

/-! ## What a path says -/

/-- Longest name of a file, and longest path, in bytes. -/
def maxName : Nat := 255

def maxPath : Nat := 4095

def segments (p : Path) : List String :=
  ((p.toList.splitOn '/').filter (!·.isEmpty)).map .ofList

/-- A path that ends in a slash can only be a directory. -/
def wantsDirectory (p : Path) : Bool := p.toList.getLast? == some '/'

def withoutSlashes (p : Path) : Path :=
  if p.toList.all (· == '/') then p else .ofList (p.toList.reverse.dropWhile (· == '/')).reverse

/-- Where the way of a path begins. -/
def origin (t : Tree) (p : Path) : Place := if p.isAbsolute then [] else t.cwd

end Tree

end UiRunner.Files
