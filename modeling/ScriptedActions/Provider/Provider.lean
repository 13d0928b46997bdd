import ScriptedActions.Agent.Agent
import ScriptedActions.Dispatch.Dispatcher
import ScriptedActions.Logging.Installation
import ScriptedActions.Provider.Config
import ScriptedActions.Schema.Discovery

/-!
# Providers

A provider finds the schemas of actions and offers an agent for each name among them to a manager.
The agents keep the catalog that the provider had when it offered them; what it finds later is
for agents that it offers later.
-/

set_option autoImplicit false

namespace ScriptedActions

/-- What offers scripted agents: its configuration and the schemas that it found. -/
structure Provider where
  config : Config
  catalog : Catalog
deriving Inhabited

/-- What came of setting up a provider. -/
structure ProviderSetup where
  provider : Except ProviderError Provider
  files : Files
  receiver : Logging.Receiver

namespace Provider

/-- The name under which providers report themselves. -/
def name : String := "rhai"

/-- The name and the version that providers report. -/
def version : String := name ++ " version 0.1.0"

/-- Sets up a provider that has found nothing yet, and the log that is configured. -/
def setUp (c : Config) (e : Environment) (now : Timestamp) (files : Files)
    (receiver : Logging.Receiver) : Logged ProviderSetup :=
  match c.validate with
  | .error error => pure ⟨.error error, files, receiver⟩
  | .ok () => do
    let i ← Logging.install c.logging e now files receiver
    let provider : Except ProviderError Provider :=
      match i.result with
      | .ok _ => .ok ⟨c, .empty⟩
      | .error error => .error (.configuration "logging" error.message)
    pure ⟨provider, i.files, i.receiver⟩

/-- Looks for schemas; those found earlier are forgotten. -/
def discover (p : Provider) (files : Files) : Logged Provider := do
  pure { p with catalog := ← Schema.discover files p.config.schemaDirectories }

/-- The names of the agents that schemas were found for. -/
def agentNames (p : Provider) : List String := p.catalog.agentNames

/-- The dispatcher for the schemas that were found. -/
def dispatcher (p : Provider) : Dispatcher :=
  ⟨⟨p.config.limits⟩, ⟨p.config.scriptDirectory, Script.Engine.extension⟩, p.catalog,
    p.config.defaultTimeout * Clock.second⟩

/-- The agent of a name, with its actions. -/
def agent (p : Provider) (name : String) : Except ProviderError (Agent Dispatcher) :=
  (p.catalog.actionsOf name).keys.foldlM (fun a action => a.register action p.dispatcher)
    (Agent.new name)

/-- A manager that agents are offered to: what it is after an offer, and whether it took the
agent. -/
abbrev Offer (σ : Type) := Agent Dispatcher → σ → Logged (Except ProviderError Unit × σ)

/-- Offers the agent of a name; whether it was taken. -/
def offerAgent {σ : Type} (p : Provider) (offer : Offer σ) (s : σ) (name : String) :
    Logged (Bool × σ) :=
  match p.agent name with
  | .error e => do
    Logged.report .error "Could not build scripted agent" [("agent", name), ("error", e.message)]
    pure (false, s)
  | .ok a => do
    Logged.report .debug "Registering scripted agent"
      [("agent", name), ("actions", String.intercalate ", " a.actionNames)]
    match ← offer a s with
    | (.ok (), s) => pure (true, s)
    | (.error e, s) => do
      Logged.report .error "Could not register scripted agent"
        [("agent", name), ("error", e.message)]
      pure (false, s)

/-- Offers an agent for each name; how many were taken. A refusal does not keep the others from
being offered. -/
def registerAll {σ : Type} (p : Provider) (offer : Offer σ) (s : σ) : Logged (Nat × σ) := do
  let (taken, s) ← p.agentNames.foldlM (fun (n, s) name => do
    let (taken, s) ← p.offerAgent offer s name
    pure (if taken then n + 1 else n, s)) (0, s)
  Logged.report .info "Scripted agents registered" [("provider", Provider.name),
    ("registered", toString taken), ("discovered", toString p.agentNames.length)]
  pure (taken, s)

end Provider

end ScriptedActions
