/-!
# Execution contexts

Until when a dispatch may run. A context has a token, by which it can be cancelled, and may have
a deadline. Tokens form a forest: cancelling a token cancels those below it, whether they were
made before or after, and none above it. Copies of a context share its token.

A clock counts nanoseconds from some begin; a deadline that its seconds cannot count is none.
-/

set_option autoImplicit false

namespace ScriptedActions

/-! ## Tokens -/

/-- What a token of a forest was made from, and whether it was cancelled itself. -/
structure TokenNode where
  parent : Option Nat
  cancelled : Bool
deriving DecidableEq, Repr, Inhabited

/-- All tokens, by the order in which they were made. -/
structure Tokens where
  nodes : Array TokenNode
deriving Repr, Inhabited

namespace Tokens

/-- No tokens. -/
def empty : Tokens := ⟨#[]⟩

/-- Makes a token, below another one if one is given. -/
def make (ts : Tokens) (parent : Option Nat) : Nat × Tokens :=
  (ts.nodes.size, ⟨ts.nodes.push ⟨parent, false⟩⟩)

/-- Cancels a token. -/
def cancel (ts : Tokens) (t : Nat) : Tokens :=
  ⟨ts.nodes.modify t fun n => { n with cancelled := true }⟩

/-- Whether a token or one above it was cancelled. A token stands below older ones only. -/
def isCancelled (ts : Tokens) (t : Nat) : Bool :=
  match ts.nodes[t]? with
  | none => false
  | some n =>
    n.cancelled ||
      match n.parent with
      | none => false
      | some p => if p < t then isCancelled ts p else false
termination_by t

end Tokens

/-! ## The clock -/

namespace Clock

/-- The nanoseconds of a second. -/
def second : Nat := 1000000000

/-- The number of seconds that the clock cannot count to. -/
def secondsBound : Nat := 0x8000000000000000

/-- The time that lies so many nanoseconds after another one, if the clock can count to it. -/
def after? (now timeout : Nat) : Option Nat :=
  if (now + timeout) / second < secondsBound then some (now + timeout) else none

end Clock

/-! ## Contexts -/

/-- Until when a dispatch may run. -/
structure Context where
  token : Nat
  deadline : Option Nat
deriving DecidableEq, Repr, Inhabited

namespace Context

/-- A context with a token and no deadline. -/
def ofToken (t : Nat) : Context := ⟨t, none⟩

/-- Bounds a context by a deadline; of two deadlines the earlier one counts. -/
def withDeadline (c : Context) (d : Nat) : Context :=
  { c with deadline := some (c.deadline.elim d fun e => min e d) }

/-- Bounds a context by a time from now on; a time that the clock cannot count to is no bound. -/
def within (c : Context) (now timeout : Nat) : Context :=
  (Clock.after? now timeout).elim c c.withDeadline

/-- The context with another token. -/
def withToken (c : Context) (t : Nat) : Context := { c with token := t }

/-- A context below another one, which can be cancelled on its own. -/
def child (c : Context) (ts : Tokens) : Context × Tokens :=
  let (t, ts) := ts.make (some c.token)
  ({ c with token := t }, ts)

/-- Whether the context was cancelled. -/
def isCancelled (c : Context) (ts : Tokens) : Bool := ts.isCancelled c.token

/-- Whether the deadline has passed. -/
def isExpired (c : Context) (now : Nat) : Bool := c.deadline.any (· ≤ now)

/-- Whether what runs under the context must stop. -/
def shouldStop (c : Context) (ts : Tokens) (now : Nat) : Bool := c.isCancelled ts || c.isExpired now

/-- Whether waiting for the end of the context is over: without a deadline it ends with a
cancellation only, and with one it ends with what comes first. -/
def isDone (c : Context) (ts : Tokens) (now : Nat) : Bool :=
  match c.deadline with
  | some d => c.isCancelled ts || d ≤ now
  | none => c.isCancelled ts

/-- The time that is left. -/
def remaining (c : Context) (now : Nat) : Option Nat := c.deadline.map (· - now)

/-- When what runs under the context must stop, if nobody cancels it from now on. -/
def stopsAt (c : Context) (ts : Tokens) (now : Nat) : Option Nat :=
  if c.isCancelled ts then some now else c.deadline

end Context

end ScriptedActions
