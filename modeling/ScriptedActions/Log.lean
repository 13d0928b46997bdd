import ScriptedActions.Table

/-!
# The log

What the library reports while it works: events with a level, a message and named fields. A
`Logged` result carries the events of the work that led to it, in their order, so the log is a
part of what a function returns.
-/

set_option autoImplicit false

namespace ScriptedActions

/-- How important an event is. -/
inductive Level where
  | trace
  | debug
  | info
  | warn
  | error
deriving DecidableEq, Repr, Inhabited

/-- The levels by their names. -/
def Level.names : List (String × Level) :=
  [("trace", .trace), ("debug", .debug), ("info", .info), ("warn", .warn), ("error", .error)]

/-- The name of a level. -/
def Level.name : Level → String
  | trace => "trace"
  | debug => "debug"
  | info => "info"
  | warn => "warn"
  | error => "error"

/-- Something that happened. -/
structure Event where
  level : Level
  message : String
  fields : Table String
deriving DecidableEq, Repr, Inhabited

/-- A result and the events of the work that led to it. -/
structure Logged (α : Type) where
  value : α
  events : List Event
deriving Repr

namespace Logged

variable {α β : Type}

/-- A result without events. -/
def quiet (a : α) : Logged α := ⟨a, []⟩

/-- Goes on with the result; the new events follow the old ones. -/
def andThen (x : Logged α) (f : α → Logged β) : Logged β :=
  ⟨(f x.value).value, x.events ++ (f x.value).events⟩

instance : Monad Logged where
  pure := quiet
  bind := andThen

instance [Inhabited α] : Inhabited (Logged α) := ⟨quiet default⟩

/-- Reports an event. -/
def report (level : Level) (message : String) (fields : List (String × String)) : Logged Unit :=
  ⟨(), [⟨level, message, Table.ofList fields⟩]⟩

@[simp] theorem value_pure (a : α) : (pure a : Logged α).value = a := rfl

@[simp] theorem events_pure (a : α) : (pure a : Logged α).events = [] := rfl

@[simp] theorem value_bind (x : Logged α) (f : α → Logged β) :
    (x >>= f).value = (f x.value).value := rfl

@[simp] theorem events_bind (x : Logged α) (f : α → Logged β) :
    (x >>= f).events = x.events ++ (f x.value).events := rfl

end Logged

end ScriptedActions
