import ScriptedActions.Json.Decoder

/-!
# Status codes

How an action ended, for its caller. On the wire a status is its number.
-/

set_option autoImplicit false

namespace ScriptedActions

/-- How an action ended. -/
inductive StatusCode where
  | ok
  | aborted
  | unknownAction
  | missingData
  | invalidData
  | unknownError
deriving DecidableEq, Repr, Inhabited

namespace StatusCode

/-- The number of a status. -/
def code : StatusCode → Nat
  | ok => 0
  | aborted => 1
  | unknownAction => 2
  | missingData => 3
  | invalidData => 4
  | unknownError => 5

/-- The status of a number. -/
def ofCode? : Nat → Option StatusCode
  | 0 => some ok
  | 1 => some aborted
  | 2 => some unknownAction
  | 3 => some missingData
  | 4 => some invalidData
  | 5 => some unknownError
  | _ => none

/-- A status for readers. -/
def text : StatusCode → String
  | ok => "OK"
  | aborted => "Aborted"
  | unknownAction => "Unknown Action"
  | missingData => "Missing Data"
  | invalidData => "Invalid Data"
  | unknownError => "Unknown Error"

/-- Why a number is no status. -/
def unknownCode (n : Nat) : String := "unknown status code " ++ toString n

/-- Reads a status. -/
def decoder : Json.Decoder StatusCode :=
  Json.Decoder.byte.refine fun n =>
    match ofCode? n with
    | some s => .ok s
    | none => .error (unknownCode n)

/-- Every status is read back from its number. -/
theorem ofCode?_code (s : StatusCode) : ofCode? s.code = some s := by cases s <;> rfl

end StatusCode

end ScriptedActions
