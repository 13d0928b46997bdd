import ScriptedActions.Agent.Manager
import ScriptedActions.Provider.Provider

/-!
# Routing requests to scripted agents

A manager of scripted agents takes what a provider offers and answers requests: it finds the agent
of a request, the agent finds the action, and the dispatcher of the action runs its script.
-/

set_option autoImplicit false

namespace ScriptedActions

/-- What came of a request, and the tokens of all contexts. -/
structure Answered where
  reply : Reply
  tokens : Tokens
deriving Inhabited

/-- A manager of scripted agents. -/
abbrev ScriptedManager := Manager (Agent Dispatcher)

namespace ScriptedManager

/-- Offers to a manager, with the name of a connector. -/
def offer (connector : String) : Provider.Offer ScriptedManager := fun a m => do
  match ← m.register a.name a connector with
  | .ok m => pure (.ok (), m)
  | .error e => pure (.error e, m)

/-- Answers a request. -/
def answer (m : ScriptedManager) (files : Files) (c : Context) (ts : Tokens) (now : Nat)
    (s : Schedule) (r : Request) : Logged Answered :=
  let refuse (reply : Reply) : Answered := ⟨reply, ts⟩
  m.route r
    (fun a => a.handle r
      (fun d => do
        let done ← d.dispatch files c ts now s r
        pure ⟨done.reply, done.tokens⟩)
      refuse)
    refuse

end ScriptedManager

end ScriptedActions
