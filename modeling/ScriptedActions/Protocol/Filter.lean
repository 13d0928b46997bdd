import ScriptedActions.Json.Decoder

/-!
# Filters

A filter says which nodes a request is meant for. It is never evaluated here: scripts see it as a
part of the message.
-/

set_option autoImplicit false

namespace ScriptedActions

/-- Which nodes a request is meant for. -/
structure Filter where
  fact : List Json
  /-- Classes of the configuration management. -/
  configClass : List String
  agent : List String
  identity : List String
  compound : List Json
deriving Repr, Inhabited

namespace Filter

/-- The filter that every node passes. -/
def empty : Filter := ⟨[], [], [], [], []⟩

/-- Whether a filter lets every node pass. -/
def isEmpty (f : Filter) : Bool :=
  f.fact.isEmpty && f.configClass.isEmpty && f.agent.isEmpty && f.identity.isEmpty &&
    f.compound.isEmpty

open Json.Decoder in
/-- Reads a filter. -/
def decoder : Json.Decoder Filter :=
  record "Filter" empty [
    .given "fact" (list value) fun f l => { f with fact := l },
    .given "cf_class" (list text) fun f l => { f with configClass := l },
    .given "agent" (list text) fun f l => { f with agent := l },
    .given "identity" (list text) fun f l => { f with identity := l },
    .given "compound" (list value) fun f l => { f with compound := l }]

/-- The members of a filter, in the order in which they are written. -/
def members (f : Filter) : List (String × Json) := [
  ("fact", .array f.fact),
  ("cf_class", .array (f.configClass.map .string)),
  ("agent", .array (f.agent.map .string)),
  ("identity", .array (f.identity.map .string)),
  ("compound", .array f.compound)]

/-- A filter as a JSON value. -/
def toJson (f : Filter) : Json := .object (Table.ofList f.members)

end Filter

end ScriptedActions
