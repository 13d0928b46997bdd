import ScriptedActions.Json.Value
import ScriptedActions.Text.Blank

/-!
# Types of outputs

A schema gives the type of an output as a hint. Hints are read leniently, and what no hint means
is a type that takes every value. The value `null` stands for an output that is not set, so every
type takes it.
-/

set_option autoImplicit false

namespace ScriptedActions

/-- What kind of values an output has. -/
inductive OutputType where
  | string
  /-- A whole number that is written as one. -/
  | integer
  | number
  | float
  | boolean
  | hash
  | array
  | any
deriving DecidableEq, Repr, Inhabited

namespace OutputType

/-- The type that a hint means. -/
def ofHint (hint : String) : OutputType :=
  match Text.asciiLower (Text.trim hint) with
  | "string" => string
  | "integer" => integer
  | "number" => number
  | "float" => float
  | "boolean" | "bool" => boolean
  | "hash" | "object" => hash
  | "array" => array
  | _ => any

/-- Whether an output of a type can have a value. -/
def accepts : OutputType → Json → Bool
  | _, .null => true
  | any, _ => true
  | string, .string _ => true
  | integer, .int _ => true
  | number, .int _ | number, .float _ | float, .int _ | float, .float _ => true
  | boolean, .bool _ => true
  | hash, .object _ => true
  | array, .array _ => true
  | _, _ => false

end OutputType

end ScriptedActions
