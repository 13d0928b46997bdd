import ScriptedActions.Agent.ProviderError
import ScriptedActions.Log
import ScriptedActions.Protocol.Reply
import ScriptedActions.Protocol.Request

/-!
# Managers

A manager knows agents by their names and routes requests to them. The first agent of a name
stays, with the connector that it was registered with; a connector is what the messages of the
agent come over, of which only the name is known here.
-/

set_option autoImplicit false

namespace ScriptedActions

/-- An agent and the name of its connector. -/
structure Registration (η : Type) where
  handler : η
  connector : String
deriving Repr, Inhabited

/-- The agents that requests are routed to. -/
structure Manager (η : Type) where
  agents : Table (Registration η)
deriving Repr, Inhabited

namespace Manager

variable {η α : Type}

/-- A manager without agents. -/
def empty : Manager η := ⟨[]⟩

/-- The names of the agents, in their order. -/
def agentNames (m : Manager η) : List String := m.agents.keys

/-- Whether there is an agent of a name. -/
def isRegistered (m : Manager η) (name : String) : Bool := m.agents.contains name

/-- The connector of an agent. -/
def connector? (m : Manager η) (name : String) : Option String :=
  (m.agents.get? name).map (·.connector)

/-- Registers an agent; there must be none of its name. -/
def register (m : Manager η) (name : String) (h : η) (connector : String) :
    Logged (Except ProviderError (Manager η)) :=
  if m.isRegistered name then pure (.error (.agentAlreadyRegistered name))
  else do
    Logged.report .debug "Registered agent" [("agent", name), ("connector", connector)]
    pure (.ok ⟨m.agents.insert name ⟨h, connector⟩⟩)

/-- The reply to a request for an agent that is not registered. -/
def unknownAgent (agent : String) : Reply := .unknownAction ("unknown agent " ++ agent)

/-- Lets the agent of a request answer it; `refuse` makes an answer of a reply. -/
def route (m : Manager η) (r : Request) (answer : η → Logged α) (refuse : Reply → α) :
    Logged α :=
  match m.agents.get? r.agent with
  | some a => answer a.handler
  | none => do
    Logged.report .warn "Request for unknown agent" [("agent", r.agent)]
    pure (refuse (unknownAgent r.agent))

end Manager

end ScriptedActions
