import ScriptedActions.Json.Decoder

/-!
# The states of a dispatch

A dispatch goes through its states in one order and may be aborted from every state that is not
an end.
-/

set_option autoImplicit false

namespace ScriptedActions

/-- How far a dispatch has come. -/
inductive DispatchState where
  | pending
  /-- The script was read. -/
  | loaded
  /-- The values for the script are there, and it is compiled. -/
  | compiled
  | running
  | completed
  | aborted
deriving DecidableEq, Repr, Inhabited

namespace DispatchState

/-- A state for readers. -/
def text : DispatchState → String
  | pending => "pending"
  | loaded => "loaded"
  | compiled => "compiled"
  | running => "running"
  | completed => "completed"
  | aborted => "aborted"

/-- Whether a state is an end. -/
def isTerminal : DispatchState → Bool
  | completed | aborted => true
  | _ => false

/-- Whether a dispatch may go from one state to another. -/
def allows : DispatchState → DispatchState → Bool
  | pending, loaded | loaded, compiled | compiled, running | running, completed => true
  | s, aborted => !s.isTerminal
  | _, _ => false

/-- The names of the states. -/
def names : List (String × DispatchState) := [
  ("Pending", pending),
  ("Loaded", loaded),
  ("Compiled", compiled),
  ("Running", running),
  ("Completed", completed),
  ("Aborted", aborted)]

/-- Reads a state. -/
def decoder : Json.Decoder DispatchState := Json.Decoder.variant names

end DispatchState

end ScriptedActions
