import UiRunner.Console.Footprint

/-!
# The executable

Reads the places that matter, runs the program on them, and carries out what it changed. There is
no network and no adb behind this program: every server refuses, and adb is not found.
-/
namespace UiRunner

open Console

/-- The path of a place. -/
def pathOf (place : Files.Place) : String := "/" ++ "/".intercalate place

/-- What stands at a place, as far as it can be read. -/
def look (place : Files.Place) : IO (Option Files.Node) := do
  try
    let content ← IO.FS.readBinFile (pathOf place)
    return some (.file content.toList)
  catch
    | .inappropriateType .. => return some .dir
    | _ => return none

def explore (files : Files.Tree) (places : List Files.Place) : IO Files.Tree := do
  let mut files := files
  for place in places do
    if (files.get? place).isNone then
      if let some node ← look place then files := files.put place node
  return files

/-- Carries out the changes from one tree to another. -/
def settle (before after : Files.Tree) : IO Unit := do
  for (place, node) in after.entries do
    if before.get? place != some node then
      match node with
      | .dir => IO.FS.createDirAll (pathOf place)
      | .file content => IO.FS.writeBinFile (pathOf place) ⟨content.toArray⟩

def isColored : IO Bool := do
  let forced := (← IO.getEnv "CLICOLOR_FORCE").any (· != "0")
  let refused := (← IO.getEnv "NO_COLOR").isSome || (← IO.getEnv "CLICOLOR") == some "0"
  return forced || (!refused && (← (← IO.getStdout).isTty))

def findHost : IO (Host Unit) := do
  let directories : Directories :=
    { home := ← IO.getEnv "HOME", config := ← IO.getEnv "XDG_CONFIG_HOME"
      data := ← IO.getEnv "XDG_DATA_HOME" }
  return { directories, network := .deserted, paint := ⟨← isColored⟩ }

def runWords (words : List String) : IO UInt32 := do
  let h ← findHost
  let cwd := Files.Tree.segments (← IO.currentDir).toString
  let start ← explore { cwd } ((List.range cwd.length).map fun n => cwd.take (n + 1))
  let first ← explore start (footprint h words start)
  let files ← explore first (footprint h words first)
  let ending := program h words (.clean () files)
  IO.print ending.desk.output
  IO.eprint ending.complaint
  settle files ending.desk.files
  return ending.code.toUInt32

end UiRunner

def main (args : List String) : IO UInt32 := UiRunner.runWords args
