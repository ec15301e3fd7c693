import UiRunner.Files.Path

/-!
# Directories of the user

Where configuration and data are kept: in the directories that the environment names, or else in
the usual places below the home directory. A directory that is not absolute is not considered.
-/
namespace UiRunner

/-- What the environment says about the user. -/
structure Directories where
  home : Option Path := none
  config : Option Path := none
  data : Option Path := none
  /-- The home directory of the account, for when the environment names none. -/
  account : Option Path := none
deriving DecidableEq, Repr

namespace Directories

def appName : String := "uitest"

def homeDir? (d : Directories) : Option Path := (d.home.filter (!·.isEmpty)).or d.account

/-- A named directory, or one below the home directory. There is none without a home. -/
def base? (d : Directories) (named : Option Path) (below : Path) : Option Path :=
  d.homeDir?.map fun home => (named.filter (·.isAbsolute)).getD (Path.join home below)

def configDir? (d : Directories) : Option Path :=
  (d.base? d.config ".config").map fun p => Path.join p appName

def configFile? (d : Directories) : Option Path :=
  d.configDir?.map fun p => Path.join p "config.toml"

def capabilitiesFile? (d : Directories) : Option Path :=
  d.configDir?.map fun p => Path.join p "capabilities.json"

def logDir? (d : Directories) : Option Path :=
  (d.base? d.data ".local/share").map fun p => Path.join (Path.join p appName) "logs"

def logFile? (d : Directories) : Option Path := d.logDir?.map fun p => Path.join p "runs.log"

end Directories

end UiRunner
