/-!
# Tables

A table binds names to values and lists its bindings in the order of the names. It is kept as
a plain list of pairs, so that it can stand inside the recursive types (a JSON object, an
object map of a script) and be taken apart by recursion; `insert` keeps the list sorted, and
names are compared by code points, which is also the order of their UTF-8 bytes.

The laws of the operations are in `ScriptedActions.Proofs.Table`.
-/

set_option autoImplicit false

namespace ScriptedActions

/-- A list of bindings in the order of their names. -/
abbrev Table (α : Type) := List (String × α)

namespace Table

variable {α β : Type}

/-- The value bound to a name. -/
def get? (t : Table α) (k : String) : Option α :=
  match t with
  | [] => none
  | (n, v) :: rest => if k = n then some v else get? rest k

/-- Whether a name is bound. -/
def contains (t : Table α) (k : String) : Bool := (t.get? k).isSome

/-- The names, in their order. -/
def keys (t : Table α) : List String := List.map Prod.fst t

/-- The values, in the order of their names. -/
def values (t : Table α) : List α := List.map Prod.snd t

/-- Binds a name, replacing the value that it had. -/
def insert (t : Table α) (k : String) (v : α) : Table α :=
  match t with
  | [] => [(k, v)]
  | (n, w) :: rest =>
    if k = n then (k, v) :: rest
    else if k < n then (k, v) :: (n, w) :: rest
    else (n, w) :: insert rest k v

/-- Replaces the value of a bound name; other names are left alone. -/
def replace (t : Table α) (k : String) (v : α) : Table α :=
  match t with
  | [] => []
  | (n, w) :: rest => if k = n then (n, v) :: rest else (n, w) :: replace rest k v

/-- Removes a name. -/
def erase (t : Table α) (k : String) : Table α :=
  match t with
  | [] => []
  | (n, w) :: rest => if k = n then rest else (n, w) :: erase rest k

/-- Applies a function to every value. -/
def mapValues (f : α → β) (t : Table α) : Table β := List.map (fun e => (e.1, f e.2)) t

/-- The table of a list of bindings, in which a later binding of a name wins. -/
def ofList (entries : List (String × α)) : Table α :=
  entries.foldl (fun t e => t.insert e.1 e.2) []

/-- The names of a table are listed in strictly increasing order. -/
def Sorted (t : Table α) : Prop := (keys t).Pairwise (· < ·)

end Table

end ScriptedActions
