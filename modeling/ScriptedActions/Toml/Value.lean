/-!
# TOML values

What a TOML document holds, with the offsets at which the parts of it start; an offset counts the
characters in front. The members of a table stand in the order in which they were declared.

A table can be declared in part by the names of tables below it, or by dotted keys. Such a table
is implicit: its own header may follow, or further dotted keys.
-/

set_option autoImplicit false

namespace ScriptedActions.Toml

/-- A key and where it stands. -/
structure Key where
  name : String
  start : Nat
deriving DecidableEq, Repr, Inhabited

/-- A value of a document. -/
inductive Value where
  | text (s : String) (start : Nat)
  | integer (n : Int) (start : Nat)
  | float (x : Float) (start : Nat)
  | bool (b : Bool) (start : Nat)
  /-- A date, a time or both; which one is never asked for. -/
  | date (start : Nat)
  | array (items : List Value) (start : Nat)
  | inline (members : List (Key × Value)) (start : Nat)
  /-- A table with a header of its own, or without one if it is implicit. -/
  | table (implicit dotted : Bool) (start : Option Nat) (members : List (Key × Value))
  /-- An array of tables with headers of their own. -/
  | tables (items : List Value)
deriving Inhabited

namespace Value

/-- Where a value starts, if it stands in one place. -/
def start? : Value → Option Nat
  | text _ s | integer _ s | float _ s | bool _ s | date s | array _ s | inline _ s => some s
  | table _ _ s _ => s
  | tables (table _ _ s _ :: _) => s
  | tables _ => none

end Value

/-- The members of a table. -/
abbrev Members := List (Key × Value)

namespace Members

/-- The value of a key. -/
def get? (ms : Members) (name : String) : Option Value :=
  (ms.find? (·.1.name == name)).map Prod.snd

/-- The members with another value for a key. -/
def set (ms : Members) (name : String) (v : Value) : Members :=
  ms.map fun m => if m.1.name == name then (m.1, v) else m

/-- The members without a key. -/
def erase (ms : Members) (name : String) : Members := ms.filter (·.1.name != name)

/-- Declares a member by a dotted key, if that is allowed: a table on the way must have been made
by dotted keys too. -/
def put (ms : Members) : List Key → Key → Value → Option Members
  | [], k, v => if (ms.get? k.name).isSome then none else some (ms ++ [(k, v)])
  | p :: rest, k, v =>
    match ms.get? p.name with
    | none =>
      (put [] rest k v).map fun inner => ms ++ [(p, .table true true none inner)]
    | some (.table implicit dotted start inner) =>
      if !implicit || (rest.isEmpty && !dotted) then none
      else
        (put inner rest k v).map fun inner =>
          set ms p.name (.table implicit dotted start inner)
    | some (.tables items) =>
      match items.reverse with
      | .table implicit dotted start inner :: before =>
        if rest.isEmpty then none
        else
          (put inner rest k v).map fun inner =>
            set ms p.name (.tables (before.reverse ++ [.table implicit dotted start inner]))
      | _ => none
    | some _ => none

/-- Changes the members of the table that a header's keys lead to; missing tables on the way are
made, and of an array of tables the last one is meant. -/
def within (ms : Members) : List Key → (Members → Option Members) → Option Members
  | [], f => f ms
  | p :: rest, f =>
    match ms.get? p.name with
    | none => (within [] rest f).map fun inner => ms ++ [(p, .table true false none inner)]
    | some (.table implicit dotted start inner) =>
      (within inner rest f).map fun inner => set ms p.name (.table implicit dotted start inner)
    | some (.tables items) =>
      match items.reverse with
      | .table implicit dotted start inner :: before =>
        (within inner rest f).map fun inner =>
          set ms p.name (.tables (before.reverse ++ [.table implicit dotted start inner]))
      | _ => none
    | some _ => none

/-- The members of the table that keys lead to. -/
def lookup (ms : Members) : List Key → Option Value
  | [] => none
  | [k] => ms.get? k.name
  | p :: rest =>
    match ms.get? p.name with
    | some (.table _ _ _ inner) => lookup inner rest
    | some (.tables items) =>
      match items.getLast? with
      | some (.table _ _ _ inner) => lookup inner rest
      | _ => none
    | _ => none

end Members

end ScriptedActions.Toml
