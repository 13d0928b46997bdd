import ScriptedActions.Protocol.Filter
import ScriptedActions.Protocol.Timestamp

/-!
# Requests

A request asks for one action of one agent. Its payload is kept as the text in which it came,
and `payload` decodes it; a payload that is no JSON object, or cannot be decoded, is an error of
the action and not of the message.

`render` writes a request with the text of the payload as it is, and `toJson` gives it as a
value, which is possible only if the payload can be decoded.
-/

set_option autoImplicit false

namespace ScriptedActions

/-- A request for an action. -/
structure Request where
  agent : String
  action : String
  /-- Who asks. -/
  caller : String
  /-- The group of nodes that the request was sent to. -/
  collective : String
  /-- The text of the payload. -/
  data : String
  filter : Filter
  /-- The identifier that the sender chose. -/
  id : String
  /-- The node that sent the request. -/
  sender : String
  /-- How many seconds the request is valid. -/
  ttl : Int
  time : Timestamp
deriving Repr, Inhabited

/-- Why a payload cannot be used: a reason for readers. -/
structure PayloadError where
  reason : String
deriving DecidableEq, Repr, Inhabited

/-- The wording of a payload error. -/
def PayloadError.message (e : PayloadError) : String := "invalid request payload: " ++ e.reason

namespace Request

/-- How many seconds a request is valid if its maker does not say. -/
def defaultTtl : Int := 60

/-- A request with a payload; nothing is known of its sender. -/
def new (agent action : String) (data : Json) (id : String) (time : Timestamp) : Request :=
  ⟨agent, action, "", "", data.render, .empty, id, "", defaultTtl, time⟩

open Json.Decoder in
/-- Reads a request. -/
def decoder : Json.Decoder Request :=
  record "Request" default [
    .needed "agent" text fun r s => { r with agent := s },
    .needed "action" text fun r s => { r with action := s },
    .needed "callerid" text fun r s => { r with caller := s },
    .needed "collective" text fun r s => { r with collective := s },
    .needed "data" raw fun r s => { r with data := s },
    .given "filter" Filter.decoder fun r f => { r with filter := f },
    .needed "requestid" text fun r s => { r with id := s },
    .needed "senderid" text fun r s => { r with sender := s },
    .needed "ttl" int64 fun r n => { r with ttl := n },
    .needed "time" Timestamp.decoder fun r t => { r with time := t }]

/-- What kind of value stands where an object should. -/
def kind : Json → String
  | .null => "null"
  | .bool _ => "a boolean"
  | .int _ | .float _ => "a number"
  | .string _ => "a string"
  | .array _ => "an array"
  | .object _ => "an object"

/-- The members of the payload; `null` stands for none. -/
def payload (r : Request) : Except PayloadError (Table Json) :=
  match Json.parse r.data with
  | .error e => .error ⟨e.message⟩
  | .ok (.object ms) => .ok ms
  | .ok .null => .ok []
  | .ok v => .error ⟨"expected a JSON object, got " ++ kind v⟩

/-- The request as a value. -/
def toJson (r : Request) : Except Json.Error Json := do
  let data ← Json.parse r.data
  pure <| .object <| Table.ofList [
    ("agent", .string r.agent),
    ("action", .string r.action),
    ("callerid", .string r.caller),
    ("collective", .string r.collective),
    ("data", data),
    ("filter", r.filter.toJson),
    ("requestid", .string r.id),
    ("senderid", .string r.sender),
    ("ttl", .int r.ttl),
    ("time", .string r.time.render)]

/-- A member of an object in writing: its name and the text of its value. -/
def memberText (name value : String) : String := Json.stringText name ++ ":" ++ value

/-- An object in writing. -/
def objectText (members : List (String × String)) : String :=
  "\x7b" ++ String.intercalate "," (members.map fun m => memberText m.1 m.2) ++ "\x7d"

/-- The request in writing; the text of the payload stands in it as it is. -/
def render (r : Request) : String :=
  objectText [
    ("agent", Json.stringText r.agent),
    ("action", Json.stringText r.action),
    ("callerid", Json.stringText r.caller),
    ("collective", Json.stringText r.collective),
    ("data", r.data),
    ("filter", objectText (r.filter.members.map fun m => (m.1, m.2.render))),
    ("requestid", Json.stringText r.id),
    ("senderid", Json.stringText r.sender),
    ("ttl", (Json.int r.ttl).render),
    ("time", Json.stringText r.time.render)]

end Request

end ScriptedActions
