import ScriptedActions.Schema.ActionSchema

/-!
# Catalogs

A catalog holds the schemas of actions, by agent and by action. The first schema of an action
counts; later ones are not taken.
-/

set_option autoImplicit false

namespace ScriptedActions

/-- The schemas of the actions of agents. -/
structure Catalog where
  agents : Table (Table ActionSchema)
deriving Repr, Inhabited

namespace Catalog

/-- The catalog without schemas. -/
def empty : Catalog := ⟨[]⟩

/-- The schemas of an agent, in the order of their actions. -/
def actionsOf (c : Catalog) (agent : String) : Table ActionSchema :=
  (c.agents.get? agent).getD []

/-- The schema of an action. -/
def lookup (c : Catalog) (agent action : String) : Option ActionSchema :=
  (c.actionsOf agent).get? action

/-- Whether an action has a schema. -/
def contains (c : Catalog) (agent action : String) : Bool := (c.lookup agent action).isSome

/-- Adds a schema unless its action has one. -/
def insert (c : Catalog) (s : ActionSchema) : Catalog :=
  if c.contains s.agent s.action then c
  else ⟨c.agents.insert s.agent ((c.actionsOf s.agent).insert s.action s)⟩

/-- Adds a schema, and whether it was taken. The agent is entered first, whether or not its action
has a schema already. -/
def add (c : Catalog) (s : ActionSchema) : Bool × Catalog :=
  let actions := c.actionsOf s.agent
  let agents := c.agents.insert s.agent actions
  if actions.contains s.action then (false, ⟨agents⟩)
  else (true, ⟨agents.insert s.agent (actions.insert s.action s)⟩)

/-- Adds schemas one after the other, and which of them were taken. -/
def addAll (c : Catalog) : List ActionSchema → List Bool × Catalog
  | [] => ([], c)
  | s :: rest =>
    let (taken, d) := c.add s
    let (others, e) := d.addAll rest
    (taken :: others, e)

/-- All schemas, in the order of their agents and actions. -/
def toList (c : Catalog) : List ActionSchema := c.agents.values.flatMap Table.values

/-- The number of schemas. -/
def size (c : Catalog) : Nat := c.toList.length

/-- Whether there is no schema. -/
def isEmpty (c : Catalog) : Bool := c.agents.isEmpty

/-- The agents that have schemas, in their order. -/
def agentNames (c : Catalog) : List String := c.agents.keys

end Catalog

end ScriptedActions
