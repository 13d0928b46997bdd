import ScriptedActions.Files.Path

/-!
# The environment

What the surroundings of a program say about the directories of its user. A directory that is
named there counts only if its path is absolute; else it lies below the home directory.
-/

set_option autoImplicit false

namespace ScriptedActions

/-- The directories that are named for a user. -/
structure Environment where
  /-- The home directory that is set. -/
  home : Option Path
  /-- The home directory of the account, for when none is set. -/
  accountHome : Option Path
  configHome : Option Path
  dataHome : Option Path
deriving DecidableEq, Repr, Inhabited

namespace Environment

/-- The home directory. -/
def homeDirectory (e : Environment) : Option Path :=
  (e.home.filter fun p => !p.text.isEmpty).or e.accountHome

/-- A directory that is named, if its path is absolute, or else a place below the home
directory. -/
def namedOr (e : Environment) (named : Option Path) (below : String) : Option Path :=
  (named.filter Path.isAbsolute).or (e.homeDirectory.map (·.join below))

/-- Where the user's configuration files are. -/
def configDirectory (e : Environment) : Option Path := e.namedOr e.configHome ".config"

/-- Where programs keep the user's data. -/
def dataDirectory (e : Environment) : Option Path := e.namedOr e.dataHome ".local/share"

end Environment

end ScriptedActions
