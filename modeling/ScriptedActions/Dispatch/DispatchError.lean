import ScriptedActions.Script.ScriptError

/-!
# Dispatch errors

Why a dispatch is aborted. The wording is the status message of the reply, and each kind has a
tag for the log.
-/

set_option autoImplicit false

namespace ScriptedActions

/-- Why a dispatch is aborted. -/
inductive DispatchError where
  /-- The script cannot be read. -/
  | scriptUnavailable (path reason : String)
  /-- No schema is declared for the action. -/
  | schemaLookupFailure (agent action : String)
  /-- A value cannot be bound, or the reply is gone. -/
  | binding (name reason : String)
  | compile (diagnostic : String)
  /-- The script wrote to an output that its schema does not declare. -/
  | schemaViolation (field : String)
  | runtime (report : String)
  /-- The deadline passed or the request was cancelled, so many nanoseconds after it began. -/
  | timeout (elapsed : Nat)
deriving DecidableEq, Repr, Inhabited

namespace DispatchError

/-- The wording of a dispatch error. -/
def message : DispatchError → String
  | scriptUnavailable path reason => "could not read action script " ++ path ++ ": " ++ reason
  | schemaLookupFailure agent action =>
    "no schema declared for action " ++ agent ++ "#" ++ action ++ "; add " ++ agent ++ "/" ++
      action ++ ".json to a schema directory"
  | binding name reason => "could not set " ++ name ++ " data: " ++ reason
  | compile d => "could not compile action: " ++ d
  | schemaViolation f => "undeclared output item " ++ f
  | runtime r => "could not run: " ++ r
  | timeout t =>
    "action timed out after " ++ toString (t / 1000000) ++
      "ms; the deadline passed or the request was cancelled"

/-- The tag of a dispatch error. -/
def tag : DispatchError → String
  | scriptUnavailable _ _ => "script_unavailable"
  | schemaLookupFailure _ _ => "schema_lookup_failure"
  | binding _ _ => "binding_error"
  | compile _ => "compile_error"
  | schemaViolation _ => "schema_violation"
  | runtime _ => "runtime_error"
  | timeout _ => "timeout"

/-- Whether the dispatch ran out of time or was cancelled. -/
def isTimeout : DispatchError → Bool
  | timeout _ => true
  | _ => false

/-- Whether the script wrote to an undeclared output. -/
def isSchemaViolation : DispatchError → Bool
  | schemaViolation _ => true
  | _ => false

/-- The dispatch error for a script error. -/
def ofScript : Script.ScriptError → DispatchError
  | .compile d => compile d
  | .binding name reason => binding name reason
  | .undeclaredOutput f => schemaViolation f
  | .runtime r => runtime r
  | .interrupted t => timeout t

end DispatchError

end ScriptedActions
