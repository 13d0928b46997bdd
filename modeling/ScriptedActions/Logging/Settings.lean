import ScriptedActions.Environment
import ScriptedActions.Json.Decoder
import ScriptedActions.Logging.Filter
import ScriptedActions.Toml.Decoder

/-!
# Log settings

Whether and where events are written to files, and which of them.
-/

set_option autoImplicit false

namespace ScriptedActions.Logging

/-- How often a new log file is begun. -/
inductive Rotation where
  | hourly
  | daily
  | never
deriving DecidableEq, Repr, Inhabited

/-- The rotations by their names. -/
def Rotation.names : List (String × Rotation) :=
  [("hourly", .hourly), ("daily", .daily), ("never", .never)]

/-- The name of a rotation. -/
def Rotation.name : Rotation → String
  | hourly => "hourly"
  | daily => "daily"
  | never => "never"

/-- Why events cannot be written to files. -/
inductive LoggingError where
  /-- No directory is configured, and the user's data directory is unknown. -/
  | noDirectory
  | unwritable (directory : Path) (reason : String)
  | invalidFilter (directives reason : String)
deriving DecidableEq, Repr, Inhabited

/-- The wording of a logging error. -/
def LoggingError.message : LoggingError → String
  | noDirectory => "no log directory available; set logging.log_dir or XDG_DATA_HOME"
  | unwritable d r =>
    "cannot write logs to '" ++ d.text ++ "': " ++ r ++ "; check the directory permissions"
  | invalidFilter d r =>
    "invalid log filter '" ++ d ++ "': " ++ r ++ "; use directives like 'target=level'"

/-- How events are written to files. -/
structure Settings where
  enabled : Bool
  /-- What log files are called, in front of the date. -/
  fileName : String
  directory : Option Path
  /-- The level for events that the filter does not tell of. -/
  level : Level
  filter : Option String
  rotation : Rotation
deriving DecidableEq, Repr, Inhabited

namespace Settings

/-- What log files are called if nothing else is configured. -/
def standardName : String := "acton-script-agents"

/-- Nothing is written. -/
def standard : Settings := ⟨false, standardName, none, .info, none, .daily⟩

/-- Events are written to a directory. -/
def inDirectory (d : Path) : Settings := { standard with enabled := true, directory := some d }

/-- The filter for events. -/
def eventFilter (s : Settings) : Except LoggingError Filter :=
  (Filter.ofText s.level (s.filter.getD "")).mapError fun e =>
    .invalidFilter (s.filter.getD "") e.message

/-- Where log files are written. -/
def logDirectory (s : Settings) (e : Environment) : Except LoggingError Path :=
  match s.directory with
  | some d => .ok d
  | none =>
    match e.dataDirectory with
    | some d => .ok ((d.join standardName).join "logs")
    | none => .error .noDirectory

open Json.Decoder in
/-- Reads settings from JSON. -/
def decoder : Json.Decoder Settings :=
  record "LoggingConfig" standard [
    .given "enabled" bool fun s b => { s with enabled := b },
    .given "file_name" text fun s n => { s with fileName := n },
    .given "log_dir" (optional (textWith "path string" fun t => .ok (Path.mk t)))
      fun s d => { s with directory := d },
    .given "level" (variant Level.names) fun s l => { s with level := l },
    .given "filter" (optional text) fun s f => { s with filter := f },
    .given "rotation" (variant Rotation.names) fun s r => { s with rotation := r }]

open Toml.Decoder in
/-- Reads settings from TOML. -/
def tomlDecoder : Toml.Decoder Settings :=
  record standard [
    field "enabled" bool fun b s => { s with enabled := b },
    field "file_name" text fun n s => { s with fileName := n },
    field "log_dir" text fun d s => { s with directory := some ⟨d⟩ },
    field "level" (variant Level.names) fun l s => { s with level := l },
    field "filter" text fun f s => { s with filter := some f },
    field "rotation" (variant Rotation.names) fun r s => { s with rotation := r }]

/-- Writes settings. -/
def toJson (s : Settings) : Json :=
  let orNull (t : Option String) : Json := t.elim .null .string
  .object (Table.ofList [
    ("enabled", .bool s.enabled),
    ("file_name", .string s.fileName),
    ("log_dir", orNull (s.directory.map Path.text)),
    ("level", .string s.level.name),
    ("filter", orNull s.filter),
    ("rotation", .string s.rotation.name)])

end Settings

end ScriptedActions.Logging
