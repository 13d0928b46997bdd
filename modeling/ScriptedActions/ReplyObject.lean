import ScriptedActions.Json.Printer

/-!
# Reply objects

The reply of an action while its script runs: a value for every output that the action
declares. A write replaces the value of a declared output and is refused for every other name,
so the names of a reply object never change.
-/

set_option autoImplicit false

namespace ScriptedActions

/-- Why a write to a reply object is refused. -/
inductive ReplyError where
  /-- The action does not declare the output. -/
  | undeclaredField (field : String)
  /-- The value has no JSON form. -/
  | invalidValue (field reason : String)
deriving DecidableEq, Repr

/-- The wording of a refused write. -/
def ReplyError.message : ReplyError → String
  | undeclaredField f => "undeclared output item " ++ f
  | invalidValue f reason => "invalid value for output item " ++ f ++ ": " ++ reason

/-- The outputs of an action and their values. -/
structure ReplyObject where
  data : Table Json
deriving Inhabited, Repr

namespace ReplyObject

/-- The value of an output. -/
def get? (r : ReplyObject) (field : String) : Option Json := r.data.get? field

/-- Whether an output is declared. -/
def contains (r : ReplyObject) (field : String) : Bool := r.data.contains field

/-- The declared outputs, in their order. -/
def keys (r : ReplyObject) : List String := r.data.keys

/-- The number of declared outputs. -/
def size (r : ReplyObject) : Nat := r.data.length

/-- Whether no output is declared; such a reply counts as false. -/
def isEmpty (r : ReplyObject) : Bool := r.data.isEmpty

/-- Replaces the value of a declared output. -/
def set (r : ReplyObject) (field : String) (value : Json) : Except ReplyError ReplyObject :=
  if r.contains field then .ok ⟨r.data.replace field value⟩
  else .error (.undeclaredField field)

/-- The outputs as JSON text. -/
def render (r : ReplyObject) : String := (Json.object r.data).render

end ReplyObject

end ScriptedActions
