import ScriptedActions.Script.Library.Containers
import ScriptedActions.Script.Library.Numbers
import ScriptedActions.Script.Library.Texts

/-!
# Functions of every value

The native functions that take any value, those of reply objects, functions and moments, and the
look-up of a native function among all that call no function of the script.
-/

set_option autoImplicit false

namespace ScriptedActions.Script.Library

open Computed

/-- The outputs that a version of the reply object declares. -/
def outputs (n : Nat) : Eval (List String) := do pure (← Eval.version n).keys

/-- The native function that waits for a number of seconds. -/
def sleeps? (seconds : Value) : Option Native :=
  match seconds with
  | .int n => some <| .act false do
      if 0 < n then Eval.sleep (n.toInt.toNat * 1000000000)
      pure .unit
  | .float x => some <| .act false do
      if x > 0.0 then Eval.sleep (x * 1000000000.0).toUInt64.toNat
      pure .unit
  | _ => none

/-- The native functions that act on the run: those that look at the reply object or at the time,
wait, or end the script. -/
def acts? (name : String) (args : List Value) : Option Native :=
  match name, args with
  | "len", [.reply n] => some (.act false do pure (Stretch.count (← outputs n).length))
  | "is_empty", [.reply n] => some (.act false do pure (.bool (← outputs n).isEmpty))
  | "keys", [.reply n] =>
    some (.act false do pure (.array ((← outputs n).map Value.text).toArray))
  | "contains", [.reply n, .text k] => some (.act false do pure (.bool ((← outputs n).contains k)))
  | "timestamp", [] => some (.act false do pure (.instant (← Eval.now)))
  | "elapsed", [.instant t] =>
    some (.act false do pure (.float (Operator.seconds (← Eval.now) t)))
  | "sleep", [v] => sleeps? v
  | "exit", [] => some (.act false (Eval.jump (.quit .unit)))
  | "exit", [v] => some (.act false (Eval.jump (.quit v)))
  | _, _ => none

/-- The native functions that take any value. -/
def any? (render : Nat → String) (name : String) (args : List Value) : Option Computed :=
  match name, args with
  | "to_string", [v] =>
    match v with
    | .text s => ok (.text s)
    | v => seen (.text (v.toText render))
  | "to_debug", [v] => seen (.text (v.toDebug render))
  | "take", [v] => both v .unit
  | "tag", [_] => seen (.int 0)
  | "set_tag", [v, .int _] => become v
  | "name", [.fn n _ _ _] => seen (.text n)
  | "is_anonymous", [.fn n _ _ _] => seen (.bool n.isEmpty)
  | _, _ => none

/-- The first function that is found. -/
def firstOf : List (Option Computed) → Option Computed
  | [] => none
  | some n :: _ => some n
  | none :: rest => firstOf rest

/-- The native function with a name for some arguments, if it calls no function of the script. -/
def find? (limits : Limits) (render : Nat → String) (name : String) (args : List Value) :
    Option Native :=
  match firstOf [containers? limits name args, texts? limits render name args, numbers? name args,
    any? render name args] with
  | some c => some (.computes c)
  | none => acts? name args

/-- Functions that can be read as properties. -/
def isGetter (name : String) (v : Value) : Bool :=
  match v with
  | .array _ | .map _ | .blob _ => name == "len" || name == "is_empty"
  | .text _ => name == "len" || name == "is_empty" || name == "bytes"
  | .int _ => name == "is_zero" || name == "is_odd" || name == "is_even" || name == "bits"
  | .float _ => ["is_zero", "is_nan", "is_finite", "is_infinite", "floor", "ceiling", "round",
      "int", "fraction"].contains name
  | .range _ _ _ => ["start", "end", "is_inclusive", "is_exclusive", "is_empty"].contains name
  | .fn _ _ _ _ => name == "name" || name == "is_anonymous"
  | .instant _ => name == "elapsed"
  | _ => false

/-- The native function that reads a property of a value. -/
def getter? (limits : Limits) (render : Nat → String) (name : String) (v : Value) :
    Option Native :=
  if isGetter name v || name == "tag" then find? limits render name [v] else none

end ScriptedActions.Script.Library
