import ScriptedActions.Files.FileTree
import ScriptedActions.Provider.Config

/-!
# Configuration files

A configuration is looked for in the working directory and then in the user's configuration
directory. The first file that is there counts, and it must be right.
-/

set_option autoImplicit false

namespace ScriptedActions.Config

/-- The configuration file of a project. -/
def localFile : Path := ⟨"acton-script-agents.toml"⟩

/-- The name of the user's configuration file. -/
def userFileName : String := "config.toml"

/-- The name of the directory of the user's configuration file. -/
def userDirectoryName : String := "acton-script-agents"

/-- The directory of the user's configuration file. -/
def userDirectory (e : Environment) : Option Path :=
  e.configDirectory.map (·.join userDirectoryName)

/-- Where a configuration is looked for. -/
def searchPaths (e : Environment) : List Path :=
  localFile :: ((userDirectory e).map (·.join userFileName)).toList

/-- Reads the configuration of a file. -/
def read (files : Files) (p : Path) : Except ProviderError Config :=
  let wrong (what : String) : ProviderError := .configuration "config_file" what
  match files.readText p with
  | .error e => .error (wrong ("failed to read '" ++ p.text ++ "': " ++ e.message))
  | .ok text =>
    (parse text).mapError fun e =>
      wrong ("failed to parse '" ++ p.text ++ "': " ++ e.message)

/-- Reads the first configuration file that is there; without any nothing is configured. -/
def load (files : Files) (e : Environment) : Logged (Except ProviderError Config) :=
  match (searchPaths e).find? files.contains with
  | none => pure (.ok standard)
  | some p => do
    Logged.report .debug "Loading configuration" [("path", p.text)]
    pure (read files p)

end ScriptedActions.Config
