import ScriptedActions.Agent.ProviderError
import ScriptedActions.Logging.Settings
import ScriptedActions.Script.LimitsRecord

/-!
# Configuration

What a provider of scripted agents is told: where scripts and schemas are, how long actions may
take, what scripts may use up, and how events are logged. `Config.validate` says whether a
provider can work with it, and `Config.parse` reads one from TOML, where every key may be missing.
-/

set_option autoImplicit false

namespace ScriptedActions

/-- The configuration of a provider. -/
structure Config where
  scriptDirectory : Path
  /-- The directories of schemas; what the first ones hold counts. -/
  schemaDirectories : List Path
  /-- How many seconds an action may take whose schema does not say. -/
  defaultTimeout : Nat
  limits : Script.Limits
  logging : Logging.Settings
deriving DecidableEq, Repr, Inhabited

namespace Config

/-- Where scripts are if nothing else is configured. -/
def standardDirectory : Path := ⟨"/etc/acton/scripts"⟩

/-- How many seconds an action may take if nothing else is configured. -/
def standardTimeout : Nat := 10

/-- The greatest default timeout that is accepted: a day, in seconds. -/
def maxTimeout : Nat := 24 * 60 * 60

/-- The configuration in which nothing is set. -/
def standard : Config :=
  ⟨standardDirectory, [standardDirectory], standardTimeout, .standard, .standard⟩

/-- Whether a provider can work with a configuration: the first fault, if there is one. -/
def validate (c : Config) : Except ProviderError Unit :=
  if c.scriptDirectory.text.isEmpty then
    .error (.configuration "script_dir" "cannot be empty; set it to the root of the script tree")
  else if c.defaultTimeout = 0 then
    .error (.configuration "default_timeout_secs" "must be greater than zero")
  else if maxTimeout < c.defaultTimeout then
    .error (.configuration "default_timeout_secs" ("must be at most " ++ toString maxTimeout))
  else if c.schemaDirectories.any (·.text.isEmpty) then
    .error (.configuration "schema_dirs" "entries cannot be empty")
  else
    match c.logging.eventFilter with
    | .ok _ => .ok ()
    | .error e => .error (.configuration "logging.filter" e.message)

open Toml.Decoder in
/-- Reads a configuration from TOML. -/
def tomlDecoder : Toml.Decoder Config :=
  let path : Toml.Decoder Path := fun v => (text v).map Path.mk
  record standard [
    field "script_dir" path fun p c => { c with scriptDirectory := p },
    field "schema_dirs" (list path) fun ps c => { c with schemaDirectories := ps },
    field "default_timeout_secs" nat fun n c => { c with defaultTimeout := n },
    field "limits" Script.Limits.tomlDecoder fun l c => { c with limits := l },
    field "logging" Logging.Settings.tomlDecoder fun s c => { c with logging := s }]

/-- Reads a configuration. -/
def parse (text : String) : Except ProviderError Config :=
  (Toml.decode tomlDecoder text).mapError fun e =>
    .configuration "config" ("invalid TOML: " ++ e.message)

/-- Writes a configuration. -/
def toJson (c : Config) : Json :=
  .object (Table.ofList [
    ("script_dir", .string c.scriptDirectory.text),
    ("schema_dirs", .array (c.schemaDirectories.map fun p => .string p.text)),
    ("default_timeout_secs", .int c.defaultTimeout),
    ("limits", c.limits.toJson),
    ("logging", c.logging.toJson)])

end Config

end ScriptedActions
