import ScriptedActions.Files.FileTree
import ScriptedActions.Logging.Settings
import ScriptedActions.Protocol.Timestamp

/-!
# Writing events to files

A program has one receiver of events. `install` makes a log file the receiver, unless the program
has one already; a file that was opened in vain stays.
-/

set_option autoImplicit false

namespace ScriptedActions.Logging

/-- Where the events of a program go. -/
inductive Receiver where
  /-- They are lost. -/
  | none
  /-- To what the program set up itself. -/
  | foreign
  /-- To a log file. -/
  | file
deriving DecidableEq, Repr, Inhabited

/-- The part of a log file's name that changes with time. -/
def Rotation.stamp? (r : Rotation) (now : Timestamp) : Option String :=
  let pad := Timestamp.padded
  let day := Timestamp.yearText now.date.year ++ "-" ++ pad 2 now.date.month ++ "-" ++
    pad 2 now.date.day
  match r with
  | .hourly => some (day ++ "-" ++ pad 2 (now.second / 3600))
  | .daily => some day
  | .never => none

/-- The extension of log files. -/
def fileExtension : String := "log"

/-- The name of a log file. -/
def Settings.logFile (s : Settings) (now : Timestamp) : String :=
  let name := if s.fileName.isEmpty then [] else [s.fileName]
  String.intercalate "." (name ++ (s.rotation.stamp? now).toList ++ [fileExtension])

/-- Opens a log file. If that fails the directory that it is to stand in is made first. -/
def openLog (files : Files) (p : Path) : Except String Files :=
  match files.openForAppending p with
  | .ok files => .ok files
  | .error e =>
    let failed (what : String) (e : FileError) : String := what ++ ": " ++ e.message
    match p.directory? with
    | none => .error (failed "failed to create initial log file" e)
    | some d =>
      match files.makeDirectory d with
      | .error e => .error (failed "failed to create log directory" e)
      | .ok files =>
        (files.openForAppending p).mapError (failed "failed to create initial log file")

/-- What came of an installation. -/
structure Installed where
  /-- Whether the log file is now the receiver of events, and was not before. -/
  result : Except LoggingError Bool
  files : Files
  receiver : Receiver

/-- Makes a log file the receiver of events, if that is enabled. -/
def install (s : Settings) (e : Environment) (now : Timestamp) (files : Files)
    (receiver : Receiver) : Logged Installed :=
  let refuse (error : LoggingError) (files : Files) : Logged Installed :=
    pure ⟨.error error, files, receiver⟩
  if !s.enabled || receiver = .file then pure ⟨.ok false, files, receiver⟩
  else
    match s.eventFilter, s.logDirectory e with
    | .error error, _ => refuse error files
    | .ok _, .error error => refuse error files
    | .ok _, .ok d =>
      match files.makeDirectory d with
      | .error error => refuse (.unwritable d error.message) files
      | .ok files =>
        match openLog files (d.join (s.logFile now)) with
        | .error reason => refuse (.unwritable d reason) files
        | .ok files =>
          if receiver = .none then do
            Logged.report .info "File logging installed" [("dir", d.text), ("file", s.fileName)]
            pure ⟨.ok true, files, .file⟩
          else do
            Logged.report .debug "Keeping the existing tracing subscriber"
              [("error", "a global default trace dispatcher has already been set")]
            pure ⟨.ok false, files, receiver⟩

end ScriptedActions.Logging
