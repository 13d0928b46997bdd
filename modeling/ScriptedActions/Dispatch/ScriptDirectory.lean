import ScriptedActions.Dispatch.DispatchError
import ScriptedActions.Files.FileTree
import ScriptedActions.Log
import ScriptedActions.Naming

/-!
# Directories of scripts

The script of an action is the file `<agent>/<action>.<extension>` of a directory. It is read
anew for every dispatch, and only if both names are valid, so no path leads out of the directory.
-/

set_option autoImplicit false

namespace ScriptedActions

/-- Where scripts are found. -/
structure ScriptDirectory where
  root : Path
  extension : String
deriving DecidableEq, Repr, Inhabited

namespace ScriptDirectory

/-- The file of a script. -/
def pathOf (d : ScriptDirectory) (agent action : String) : Path :=
  (d.root.join agent).join (action ++ "." ++ d.extension)

/-- The contents of a script. -/
def resolve (d : ScriptDirectory) (files : Files) (agent action : String) :
    Logged (Except DispatchError (List UInt8)) := do
  let path := d.pathOf agent action
  let unavailable (reason : String) : DispatchError := .scriptUnavailable path.text reason
  match Naming.check agent with
  | .error e => pure (.error (unavailable ("agent " ++ e.message)))
  | .ok () =>
    match Naming.check action with
    | .error e => pure (.error (unavailable ("action " ++ e.message)))
    | .ok () =>
      match files.read path with
      | .error e => pure (.error (unavailable e.message))
      | .ok bytes => do
        Logged.report .trace "Read action script"
          [("path", path.text), ("bytes", toString bytes.length)]
        pure (.ok bytes)

end ScriptDirectory

end ScriptedActions
