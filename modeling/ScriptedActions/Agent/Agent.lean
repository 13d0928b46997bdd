import ScriptedActions.Agent.ProviderError
import ScriptedActions.Log
import ScriptedActions.Protocol.Reply
import ScriptedActions.Protocol.Request

/-!
# Agents

An agent has a handler for each of its actions. The first handler of an action stays. What a
handler is does not matter here: `handle` says how one answers.
-/

set_option autoImplicit false

namespace ScriptedActions

/-- An agent: its name and the handlers of its actions. -/
structure Agent (η : Type) where
  name : String
  actions : Table η
deriving Repr, Inhabited

namespace Agent

variable {η α : Type}

/-- An agent without actions. -/
def new (name : String) : Agent η := ⟨name, []⟩

/-- Whether the agent has an action. -/
def hasAction (a : Agent η) (action : String) : Bool := a.actions.contains action

/-- The names of the actions, in their order. -/
def actionNames (a : Agent η) : List String := a.actions.keys

/-- Gives an action its handler; it must have none. -/
def register (a : Agent η) (action : String) (h : η) : Except ProviderError (Agent η) :=
  if a.hasAction action then .error (.actionAlreadyRegistered a.name action)
  else .ok { a with actions := a.actions.insert action h }

/-- The reply to a request for an action that the agent does not have. -/
def unknownAction (a : Agent η) (action : String) : Reply :=
  .unknownAction ("unknown action " ++ action ++ " for agent " ++ a.name)

/-- Lets the handler of the action answer a request; `refuse` makes an answer of a reply. -/
def handle (a : Agent η) (r : Request) (answer : η → Logged α) (refuse : Reply → α) :
    Logged α :=
  match a.actions.get? r.action with
  | some h => answer h
  | none => do
    Logged.report .warn "Unknown action requested" [("agent", a.name), ("action", r.action)]
    pure (refuse (a.unknownAction r.action))

end Agent

end ScriptedActions
