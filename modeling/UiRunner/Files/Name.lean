/-!
# Safe file names

A name that a user gave becomes the name of a file directly inside a directory: pairs of dots are
removed, separators become underscores, and dots at the start are removed.
-/
namespace UiRunner.Files

def dropDotPairs : List Char → List Char
  | '.' :: '.' :: cs => dropDotPairs cs
  | c :: cs => c :: dropDotPairs cs
  | [] => []

def flattenSeparator (c : Char) : Char := if c = '/' ∨ c = '\\' then '_' else c

def safeNameChars (cs : List Char) : List Char :=
  ((dropDotPairs cs).map flattenSeparator).dropWhile (· == '.')

def safeName (s : String) : String := .ofList (safeNameChars s.toList)

example : safeName "../../etc/login.png" = "__etc_login.png" := by decide +kernel

end UiRunner.Files
