/-!
# Provider errors

Why a provider of scripted agents cannot be set up, or an agent not registered.
-/

set_option autoImplicit false

namespace ScriptedActions

/-- Why a provider or an agent is refused. -/
inductive ProviderError where
  /-- A part of the configuration is missing or wrong. -/
  | configuration (field reason : String)
  | agentAlreadyRegistered (agent : String)
  | actionAlreadyRegistered (agent action : String)
  /-- The manager did not take the agent. -/
  | registrationFailed (agent reason : String)
deriving DecidableEq, Repr, Inhabited

namespace ProviderError

/-- The wording of a provider error. -/
def message : ProviderError → String
  | configuration f r => "invalid configuration for '" ++ f ++ "': " ++ r
  | agentAlreadyRegistered a =>
    "agent '" ++ a ++ "' is already registered; agent names must be unique"
  | actionAlreadyRegistered a x =>
    "agent '" ++ a ++ "' already has a handler for action '" ++ x ++ "'"
  | registrationFailed a r => "could not register agent '" ++ a ++ "': " ++ r

/-- Whether the configuration is to blame. -/
def isConfiguration : ProviderError → Bool
  | configuration _ _ => true
  | _ => false

end ProviderError

end ScriptedActions
