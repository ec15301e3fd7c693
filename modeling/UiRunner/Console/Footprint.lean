import UiRunner.Console.Program

/-!
# What the program looks at

The places in the file system that decide what an invocation does. Which ones they are depends on
the settings, so they are found by looking twice: first for the settings, then for the rest.
-/
namespace UiRunner.Console

variable {σ : Type}

/-- The places that a path leads through from a directory, its own place last. -/
def placesFrom (at_ : Files.Place) : List String → List Files.Place
  | [] => []
  | name :: rest =>
    if name == "." then placesFrom at_ rest
    else
      let next := if name == ".." then at_.dropLast else at_ ++ [name]
      next :: placesFrom next rest

def placesOf (cwd : Files.Place) (p : Path) : List Files.Place :=
  placesFrom (if p.isAbsolute then [] else cwd) (Files.Tree.segments p)

/-- The files that a command reads or writes. -/
def Command.paths (h : Host σ) (s : Settings) : Command → List Path
  | .run o => [o.case, s.actions.reportsDir] ++ (s.usedCapabilities? h.directories).toList
  | .actions _ => []
  | .doctor _ | .init _ => (s.usedCapabilities? h.directories).toList

def Invocation.paths (h : Host σ) (i : Invocation) (files : Files.Tree) : List Path :=
  (i.config.or h.directories.configFile?).toList ++ (i.logPath? h.directories).toList ++
    (match i.settings h files with
      | .ok s => i.command.paths h s
      | .error _ => [])

/-- The places that decide what a command line does, as far as the known files tell. -/
def footprint (h : Host σ) (words : List String) (files : Files.Tree) : List Files.Place :=
  match Invocation.ofWords words with
  | .error _ => []
  | .ok i => ((i.paths h files).flatMap (placesOf files.cwd)).eraseDups

end UiRunner.Console
