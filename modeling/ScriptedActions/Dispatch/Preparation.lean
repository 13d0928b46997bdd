import ScriptedActions.Dispatch.DispatchError
import ScriptedActions.Protocol.Request
import ScriptedActions.Schema.Catalog
import ScriptedActions.Script.Engine

/-!
# What a script is given

The values that a script gets for a request: the request as a value, the members of its payload,
and a reply object with the outputs that the schema of the action declares.
-/

set_option autoImplicit false

namespace ScriptedActions.Request

/-- The request as a value, and the members of its payload. -/
def values (r : Request) : Except DispatchError (Json × Table Json) :=
  match r.toJson with
  | .error e => .error (.binding "rpc" e.message)
  | .ok rpc =>
    match r.payload with
    | .error e => .error (.binding "request" e.message)
    | .ok inputs => .ok (rpc, inputs)

/-- The schema of the action that is asked for, and the values for its script. -/
def prepare (r : Request) (c : Catalog) :
    Except DispatchError (ActionSchema × Script.Bindings) :=
  match r.values with
  | .error e => .error e
  | .ok (rpc, inputs) =>
    match c.lookup r.agent r.action with
    | none => .error (.schemaLookupFailure r.agent r.action)
    | some s => .ok (s, ⟨rpc, inputs, s.reply⟩)

end ScriptedActions.Request
