import ScriptedActions.Files.Path
import ScriptedActions.Json.Decoder
import ScriptedActions.ReplyObject
import ScriptedActions.Schema.OutputType

/-!
# Schemas of actions

The schema of an action declares its outputs: their types and the values that they have before
the script of the action writes them. A schema comes from a file whose members may all be
missing; the names of the agent and the action come from elsewhere.
-/

set_option autoImplicit false

namespace ScriptedActions

/-- The declaration of an output. -/
structure OutputField where
  /-- The type, as the schema gives it. -/
  typeHint : String
  default : Json
  description : String
  /-- What the output is called where it is shown. -/
  displayAs : String
deriving Repr, Inhabited

namespace OutputField

/-- An output with a type and nothing else. -/
def ofHint (hint : String) : OutputField := ⟨hint, .null, "", ""⟩

/-- The type of an output. -/
def type (f : OutputField) : OutputType := .ofHint f.typeHint

/-- Whether the output can have its default. -/
def isWellTyped (f : OutputField) : Bool := f.type.accepts f.default

open Json.Decoder in
/-- Reads the declaration of an output. -/
def decoder : Json.Decoder OutputField :=
  record "OutputField" (ofHint "") [
    .given "type" text fun f s => { f with typeHint := s },
    .given "default" value fun f v => { f with default := v },
    .given "description" text fun f s => { f with description := s },
    .given "display_as" text fun f s => { f with displayAs := s }]

end OutputField

/-- What a schema file says. -/
structure SchemaFile where
  description : String
  /-- How many seconds the action may take. -/
  timeout : Option Nat
  outputs : Table OutputField
deriving Repr, Inhabited

open Json.Decoder in
/-- Reads a schema file; what it says beyond this is passed over. -/
def SchemaFile.decoder : Json.Decoder SchemaFile :=
  record "SchemaFile" ⟨"", none, []⟩ [
    .given "description" text fun f s => { f with description := s },
    .given "timeout" (optional nat64) fun f n => { f with timeout := n },
    .given "output" (table OutputField.decoder) fun f t => { f with outputs := t }]

/-- The outputs of an action of an agent. -/
structure ActionSchema where
  agent : String
  action : String
  description : String
  /-- How many seconds the action may take, if that is declared. -/
  timeout : Option Nat
  outputs : Table OutputField
  /-- The file that the schema was read from. -/
  path : Option Path
deriving Repr, Inhabited

namespace ActionSchema

/-- The schema of an action without outputs. -/
def new (agent action : String) : ActionSchema := ⟨agent, action, "", none, [], none⟩

/-- The schema that a file declares. A timeout of zero seconds declares none. -/
def ofFile (agent action : String) (f : SchemaFile) : ActionSchema :=
  ⟨agent, action, f.description, f.timeout.filter (0 < ·), f.outputs, none⟩

/-- The names of the outputs, in their order. -/
def outputNames (s : ActionSchema) : List String := s.outputs.keys

/-- The outputs and their defaults. -/
def defaults (s : ActionSchema) : Table Json := s.outputs.mapValues (·.default)

/-- The outputs whose defaults are not of their types. -/
def mistypedDefaults (s : ActionSchema) : List String :=
  (s.outputs.filter fun e => !e.2.isWellTyped).map Prod.fst

/-- The reply object that the script of the action gets. -/
def reply (s : ActionSchema) : ReplyObject := ⟨s.defaults⟩

end ActionSchema

end ScriptedActions
