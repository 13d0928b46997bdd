import ScriptedActions.Protocol.StatusCode

/-!
# Replies

What the caller of an action gets: a status, a message and the outputs.
-/

set_option autoImplicit false

namespace ScriptedActions

/-- The answer to a request. -/
structure Reply where
  status : StatusCode
  message : String
  data : Table Json
deriving Repr, Inhabited

namespace Reply

/-- The reply of an action that was done. -/
def ok (data : Table Json) : Reply := ⟨.ok, StatusCode.ok.text, data⟩

/-- A reply without outputs. -/
def withStatus (status : StatusCode) (message : String) : Reply := ⟨status, message, []⟩

/-- The reply of an action that was aborted. -/
def aborted (message : String) : Reply := withStatus .aborted message

/-- The reply to a request for an action that nobody does. -/
def unknownAction (message : String) : Reply := withStatus .unknownAction message

/-- Whether the action was done. -/
def isOk (r : Reply) : Bool := r.status == .ok

open Json.Decoder in
/-- Reads a reply. -/
def decoder : Json.Decoder Reply :=
  record "Reply" (ok []) [
    .needed "statuscode" StatusCode.decoder fun r s => { r with status := s },
    .needed "statusmsg" text fun r m => { r with message := m },
    .given "data" (table value) fun r d => { r with data := d }]

/-- Writes a reply. -/
def toJson (r : Reply) : Json :=
  .object (Table.ofList [
    ("statuscode", .int r.status.code),
    ("statusmsg", .string r.message),
    ("data", .object r.data)])

end Reply

end ScriptedActions
