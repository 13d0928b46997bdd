import ScriptedActions.Provider.Routing

/-!
# Sessions

What a host does with one provider and one manager, step by step: it changes files, lets the
provider look for schemas, has it register its agents, and dispatches requests. A manager of a
host may refuse agents on grounds of its own, so a register step says which names it refuses.
-/

set_option autoImplicit false

namespace ScriptedActions

/-- What a session works with. -/
structure Session where
  files : Files
  provider : Provider
  manager : ScriptedManager
  /-- The tokens of all contexts. -/
  tokens : Tokens

/-- A step of a session. -/
inductive SessionStep where
  /-- A file or directory is put at a path. -/
  | write (p : Path) (t : FileTree)
  | remove (p : Path)
  | discover
  /-- The provider registers its agents, with a connector; some names are refused. -/
  | register (connector : String) (refuses : String → Bool)
  | dispatch (c : Context) (now : Nat) (s : Schedule) (r : Request)

namespace Session

/-- A session in which nothing has happened. -/
def begin (k : Config) (files : Files) (ts : Tokens) : Session :=
  ⟨files, ⟨k, .empty⟩, Manager.empty, ts⟩

/-- Offers to a manager that refuses some names. -/
def offer (connector : String) (refuses : String → Bool) : Provider.Offer ScriptedManager :=
  fun a m =>
    if refuses a.name then pure (.error (.registrationFailed a.name "refused"), m)
    else ScriptedManager.offer connector a m

/-- The answer to a request at a moment. -/
def answer (s : Session) (c : Context) (now : Nat) (sch : Schedule) (r : Request) :
    Logged Answered :=
  s.manager.answer s.files c s.tokens now sch r

/-- Makes a step. -/
def step (s : Session) : SessionStep → Logged Session
  | .write p t => pure { s with files := s.files.put p t }
  | .remove p => pure { s with files := s.files.remove p }
  | .discover => do pure { s with provider := ← s.provider.discover s.files }
  | .register connector refuses => do
    let (_, m) ← s.provider.registerAll (offer connector refuses) s.manager
    pure { s with manager := m }
  | .dispatch c now sch r => do pure { s with tokens := (← s.answer c now sch r).tokens }

/-- Makes some steps. -/
def run (s : Session) (steps : List SessionStep) : Session :=
  steps.foldl (fun s e => (s.step e).value) s

/-- What is registered under a name. -/
def registration? (s : Session) (name : String) : Option (Registration (Agent Dispatcher)) :=
  s.manager.agents.get? name

end Session

end ScriptedActions
