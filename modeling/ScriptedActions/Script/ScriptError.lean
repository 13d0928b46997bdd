/-!
# Script errors

Why a script does not do its work, as its caller sees it.
-/

set_option autoImplicit false

namespace ScriptedActions.Script

/-- Why a script fails. -/
inductive ScriptError where
  /-- The source is no text or no script. -/
  | compile (diagnostic : String)
  /-- A value that was to be bound has no form in scripts, or the reply is gone. -/
  | binding (name reason : String)
  /-- The script wrote to an output that is not declared. -/
  | undeclaredOutput (field : String)
  | runtime (report : String)
  /-- The run was told to stop, so many nanoseconds after it began. -/
  | interrupted (elapsed : Nat)
deriving DecidableEq, Repr, Inhabited

/-- The wording of a script error. -/
def ScriptError.message : ScriptError → String
  | compile d => "compile error: " ++ d
  | binding n r => "binding '" ++ n ++ "' failed: " ++ r
  | undeclaredOutput f => "undeclared output item " ++ f
  | runtime r => "runtime error: " ++ r
  | interrupted t => "interrupted after " ++ toString (t / 1000000) ++ "ms"

end ScriptedActions.Script
