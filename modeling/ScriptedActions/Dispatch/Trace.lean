import ScriptedActions.Dispatch.State
import ScriptedActions.Log
import ScriptedActions.Protocol.Request

/-!
# Traces

The state of a dispatch, which its two sides move on: the dispatcher and the thread of the
script. A move that the states do not allow is reported and not made; once the dispatch has
ended, moves are late and dropped.
-/

set_option autoImplicit false

namespace ScriptedActions

/-- The state of the dispatch of a request. -/
structure Trace where
  agent : String
  action : String
  /-- The identifier of the request. -/
  id : String
  state : DispatchState
deriving DecidableEq, Repr, Inhabited

namespace Trace

/-- The trace of a dispatch that begins. -/
def start (r : Request) : Trace := ⟨r.agent, r.action, r.id, .pending⟩

/-- What every report of a dispatch tells. -/
def about (t : Trace) : List (String × String) :=
  [("agent", t.agent), ("action", t.action), ("request_id", t.id)]

/-- Moves to a state. -/
def enter (t : Trace) (next : DispatchState) : Logged Trace :=
  if t.state.isTerminal then do
    Logged.report .debug "Dispatch already finished"
      (t.about ++ [("state", t.state.text), ("ignored", next.text)])
    pure t
  else if t.state.allows next then do
    Logged.report .debug "Dispatch state changed" (t.about ++ [("state", next.text)])
    pure { t with state := next }
  else do
    Logged.report .warn "Illegal dispatch state transition"
      (t.about ++ [("from", t.state.text), ("to", next.text)])
    pure t

end Trace

end ScriptedActions
