import ScriptedActions.Script.Library.Containers

/-!
# Functions that call functions

The native functions that go through an array or an object map and call a function of the script
for every item. The function gets the item as `this` or as an argument, whichever it has a
parameter for, and its index behind it if it has one more parameter. In place of a function, most
take the name of one.

`invoke name f subject args extras` calls `f` on behalf of the native function `name`; the result
is what `f` gives back and what becomes of the item.
-/

set_option autoImplicit false

namespace ScriptedActions.Script.Library

/-- What a function of the script is called for. -/
inductive Subject where
  | nothing
  /-- An item that is `this`. -/
  | this (v : Value)
  /-- An item that is `this` unless the function has a parameter for it. -/
  | item (v : Value)

/-- How a function of the script is called: on behalf of which native function, for what, with
which arguments and which further ones. -/
abbrev Invoke :=
  String → Value → Subject → List Value → List Value → Eval (Value × Value)

variable (invoke : Invoke)

/-- Whether a value is the truth value `true`. -/
def isTrue : Value → Bool
  | .bool b => b
  | _ => false

/-- What a function gives back for every item. -/
def mapped (name : String) (f : Value) : List Value → Nat → Eval (List Value)
  | [], _ => pure []
  | v :: rest, n => do
    let r ← invoke name f (.item v) [] [Stretch.count n]
    pure (r.1 :: (← mapped name f rest (n + 1)))

/-- What becomes of the items for which a function is called. -/
def visited (name : String) (f : Value) : List Value → Nat → Eval (List Value)
  | [], _ => pure []
  | v :: rest, n => do
    let r ← invoke name f (.this v) [] [Stretch.count n]
    pure (r.2 :: (← visited name f rest (n + 1)))

/-- The items for which a function says yes, and the others. -/
def parted (name : String) (f : Value) : List Value → Nat → Eval (List Value × List Value)
  | [], _ => pure ([], [])
  | v :: rest, n => do
    let r ← invoke name f (.item v) [] [Stretch.count n]
    let (yes, no) ← parted name f rest (n + 1)
    pure (if isTrue r.1 then (r.2 :: yes, no) else (yes, r.2 :: no))

/-- The first item for which a function says yes, and its index. -/
def firstFor (name : String) (f : Value) : List Value → Nat → Eval (Option (Value × Nat))
  | [], _ => pure none
  | v :: rest, n => do
    let r ← invoke name f (.item v) [] [Stretch.count n]
    if isTrue r.1 then pure (some (v, n)) else firstFor name f rest (n + 1)

/-- Whether a function says yes for all items. -/
def allFor (name : String) (f : Value) : List Value → Nat → Eval Bool
  | [], _ => pure true
  | v :: rest, n => do
    let r ← invoke name f (.item v) [] [Stretch.count n]
    if isTrue r.1 then allFor name f rest (n + 1) else pure false

/-- The first value that a function gives back that is not the unit. -/
def firstValue (name : String) (f : Value) : List Value → Nat → Eval Value
  | [], _ => pure .unit
  | v :: rest, n => do
    let r ← invoke name f (.item v) [] [Stretch.count n]
    if r.1.isUnit then firstValue name f rest (n + 1) else pure r.1

/-- A value to which a function adds one item after the other. -/
def reduced (name : String) (f : Value) : Value → List (Value × Nat) → Eval Value
  | acc, [] => pure acc
  | acc, (v, n) :: rest => do
    let r ← invoke name f .nothing [acc, v] [Stretch.count n]
    reduced name f r.1 rest

/-- Whether the first of two values may stand in front, by a function that says how they are
ordered: a negative number or `true` for in front. -/
def inFront (f a b : Value) : Eval Bool := do
  match ← (invoke "sort" f .nothing [a, b] []).value? with
  | some (.int n, _) => pure (decide (n ≤ 0))
  | some (.bool b, _) => pure b
  | _ => pure true

/-- Two ordered lists as one; items of the first one come first if they may. -/
def merge (f : Value) : Nat → List Value → List Value → Eval (List Value)
  | 0, a, b => pure (a ++ b)
  | _ + 1, [], b => pure b
  | _ + 1, a, [] => pure a
  | n + 1, v :: a, w :: b => do
    if ← inFront invoke f v w then
      pure (v :: (← merge f n a (w :: b)))
    else pure (w :: (← merge f n (v :: a) b))

/-- Items in the order that a function says. -/
def ordered (f : Value) : Nat → List Value → Eval (List Value)
  | 0, items => pure items
  | n + 1, items =>
    if items.length ≤ 1 then pure items
    else do
      let half := items.length / 2
      let a ← ordered f n (items.take half)
      let b ← ordered f n (items.drop half)
      merge invoke f items.length a b

/-- Items without those that a function says are like the one before them. -/
def dedupedBy (f : Value) : Value → List Value → Eval (List Value)
  | _, [] => pure []
  | last, v :: rest => do
    let r ← (invoke "dedup" f .nothing [last, v] []).value?
    let same := r.any fun (x, _) => isTrue x
    if same then dedupedBy f last rest else pure (v :: (← dedupedBy f v rest))

/-- Items with their indices. -/
def indexed (items : List Value) : List (Value × Nat) := items.zipIdx

/-- The entries of an object map for which a function says yes, and the others. -/
def partedEntries (name : String) (f : Value) :
    List (String × Value) → Eval (List (String × Value) × List (String × Value))
  | [] => pure ([], [])
  | (k, v) :: rest => do
    let r ← invoke name f (.item v) [.text k] []
    let (yes, no) ← partedEntries name f rest
    pure (if isTrue r.1 then ((k, r.2) :: yes, no) else (yes, (k, r.2) :: no))

/-- The native functions on arrays that call functions. -/
def arrayCallbacks? (name : String) (items : Array Value) (args : List Value) :
    Option Native :=
  let list := items.toList
  let view (e : Eval Value) : Option Native := some (.act false e)
  let change (e : Eval Value) : Option Native := some (.act true e)
  let keep (l : List Value) : Eval Unit := Eval.refocus (.array l.toArray)
  match name, args with
  | "map", [f@(.fn _ _ _ _)] => view do
    pure (.array (← mapped invoke name f list 0).toArray)
  | "filter", [f@(.fn _ _ _ _)] => view do
    pure (.array (← parted invoke name f list 0).1.toArray)
  | "for_each", [f@(.fn _ _ _ _)] => change do
    keep (← visited invoke name f list 0)
    pure .unit
  | "some", [f@(.fn _ _ _ _)] => view do
    pure (.bool (← firstFor invoke name f list 0).isSome)
  | "all", [f@(.fn _ _ _ _)] => view do pure (.bool (← allFor invoke name f list 0))
  | "find", [f@(.fn _ _ _ _)] => view do
    pure ((← firstFor invoke name f list 0).elim .unit Prod.fst)
  | "find", [f@(.fn _ _ _ _), .int start] => view do
    let n := insertionPoint items.size start.toInt
    pure ((← firstFor invoke name f (list.drop n) n).elim .unit Prod.fst)
  | "find_map", [f@(.fn _ _ _ _)] => view (firstValue invoke name f list 0)
  | "find_map", [f@(.fn _ _ _ _), .int start] => view do
    let n := insertionPoint items.size start.toInt
    firstValue invoke name f (list.drop n) n
  | "index_of", [f@(.fn _ _ _ _)] => view do
    pure ((← firstFor invoke name f list 0).elim (.int (-1)) fun r => Stretch.count r.2)
  | "index_of", [f@(.fn _ _ _ _), .int start] => view do
    let n := insertionPoint items.size start.toInt
    pure ((← firstFor invoke name f (list.drop n) n).elim (.int (-1)) fun r => Stretch.count r.2)
  | "reduce", [f@(.fn _ _ _ _)] => view (reduced invoke name f .unit (indexed list))
  | "reduce", [f@(.fn _ _ _ _), v] => view (reduced invoke name f v (indexed list))
  | "reduce_rev", [f@(.fn _ _ _ _)] => view (reduced invoke name f .unit (indexed list).reverse)
  | "reduce_rev", [f@(.fn _ _ _ _), v] => view (reduced invoke name f v (indexed list).reverse)
  | "drain", [f@(.fn _ _ _ _)] => change do
    let (yes, no) ← parted invoke name f list 0
    keep no
    pure (.array yes.toArray)
  | "retain", [f@(.fn _ _ _ _)] => change do
    let (yes, no) ← parted invoke name f list 0
    keep yes
    pure (.array no.toArray)
  | "sort", [f@(.fn _ _ _ _)] => change do
    keep (← ordered invoke f items.size list)
    pure .unit
  | "dedup", [f@(.fn _ _ _ _)] => change do
    match list with
    | [] => pure .unit
    | v :: rest =>
      keep (v :: (← dedupedBy invoke f v rest))
      pure .unit
  | _, _ => none

/-- The native functions on object maps that call functions. -/
def mapCallbacks? (name : String) (entries : List (String × Value)) (args : List Value) :
    Option Native :=
  match name, args with
  | "filter", [f@(.fn _ _ _ _)] => some <| .act false do
    pure (.map (← partedEntries invoke name f entries).1)
  | "drain", [f@(.fn _ _ _ _)] => some <| .act true do
    let (yes, no) ← partedEntries invoke name f entries
    Eval.refocus (.map no)
    pure (.map yes)
  | "retain", [f@(.fn _ _ _ _)] => some <| .act true do
    let (yes, no) ← partedEntries invoke name f entries
    Eval.refocus (.map yes)
    pure (.map no)
  | _, _ => none

/-- The functions of arrays that take the name of a function in place of a function. -/
def takingNames : List String :=
  ["map", "filter", "some", "all", "dedup", "reduce", "reduce_rev", "sort", "drain", "retain"]

/-- The native functions that call functions of the script; `named` is the function with a
name. -/
def callbacks? (named : String → Value) (name : String) (args : List Value) : Option Native :=
  match args with
  | .array items :: .text s :: rest =>
    if takingNames.contains name then arrayCallbacks? invoke name items (named s :: rest) else none
  | .array items :: rest => arrayCallbacks? invoke name items rest
  | .map entries :: rest => mapCallbacks? invoke name entries rest
  | _ => none

end ScriptedActions.Script.Library
