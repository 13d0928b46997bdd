import ScriptedActions.Dispatch.Context

/-!
# Contexts of a host

What a host does with contexts, step by step: it makes them, derives them from one another, and
cancels them. Contexts are known by the order in which they were made, and none is forgotten, so a
step can use any context and any token that there is. A step that uses one that there is not does
nothing.
-/

set_option autoImplicit false

namespace ScriptedActions

/-- All tokens and all contexts that were made so far. -/
structure Contexts where
  tokens : Tokens
  held : List Context

/-- A step of a host. -/
inductive ContextStep where
  /-- Makes a token, below another one if one is given. -/
  | token (parent : Option Nat)
  | new
  | withTimeout (timeout : Nat)
  | within (c timeout : Nat)
  | withDeadline (c deadline : Nat)
  | child (c : Nat)
  | clone (c : Nat)
  | withToken (c t : Nat)
  | cancel (c : Nat)
  | cancelToken (t : Nat)
deriving DecidableEq, Repr

namespace ContextStep

/-- The context that a step derives another one from, if it does. -/
def source? : ContextStep → Option Nat
  | .within i _ | .withDeadline i _ | .child i | .clone i | .withToken i _ => some i
  | _ => none

/-- The deadline that a step applies at a moment, if it applies one. -/
def bound? (now : Nat) : ContextStep → Option Nat
  | .withTimeout timeout | .within _ timeout => Clock.after? now timeout
  | .withDeadline _ d => some d
  | _ => none

end ContextStep

namespace Contexts

/-- A host that has made nothing. -/
def empty : Contexts := ⟨.empty, []⟩

/-- Whether there is a token. -/
def hasToken (s : Contexts) (t : Nat) : Bool := t < s.tokens.nodes.size

/-- The token that a step cancels, if it cancels one. -/
def hit? (s : Contexts) : ContextStep → Option Nat
  | .cancel i => (s.held[i]?).map (·.token)
  | .cancelToken t => if s.hasToken t then some t else none
  | _ => none

/-- Makes a context of another one. -/
def derive (s : Contexts) (i : Nat) (f : Context → Tokens → Context × Tokens) : Contexts :=
  match s.held[i]? with
  | none => s
  | some c => ⟨(f c s.tokens).2, s.held ++ [(f c s.tokens).1]⟩

/-- Makes a context with a token of its own. -/
def fresh (s : Contexts) (f : Context → Context) : Contexts :=
  ⟨(s.tokens.make none).2, s.held ++ [f (.ofToken (s.tokens.make none).1)]⟩

/-- Makes a step at a moment. -/
def step (s : Contexts) (now : Nat) : ContextStep → Contexts
  | .token parent => if parent.all s.hasToken then ⟨(s.tokens.make parent).2, s.held⟩ else s
  | .new => s.fresh id
  | .withTimeout timeout => s.fresh fun c => c.within now timeout
  | .within i timeout => s.derive i fun c ts => (c.within now timeout, ts)
  | .withDeadline i d => s.derive i fun c ts => (c.withDeadline d, ts)
  | .child i => s.derive i Context.child
  | .clone i => s.derive i Prod.mk
  | .withToken i t => if s.hasToken t then s.derive i fun c ts => (c.withToken t, ts) else s
  | .cancel i => (s.hit? (.cancel i)).elim s fun t => { s with tokens := s.tokens.cancel t }
  | .cancelToken t => (s.hit? (.cancelToken t)).elim s fun t => { s with tokens := s.tokens.cancel t }

/-- Makes some steps, each at its moment. -/
def run (s : Contexts) (steps : List (Nat × ContextStep)) : Contexts :=
  steps.foldl (fun s e => s.step e.1 e.2) s

end Contexts

end ScriptedActions
