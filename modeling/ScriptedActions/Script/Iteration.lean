import ScriptedActions.Script.Value

/-!
# Iterations

What a `for` loop goes through: the items of an array, the characters of a text, the bytes of a
blob, the numbers of a range. Ranges are gone through without building them.
-/

set_option autoImplicit false

namespace ScriptedActions.Script

/-- What is left of an iteration. -/
inductive Iteration where
  | items (l : List Value)
  /-- The integers from `next` on, up to `last`, which is one of them if the range is inclusive. -/
  | numbers (next last : Int64) (inclusive : Bool)
  /-- The integers from `next` on, `step` apart, in front of `last`. -/
  | steps (next last step : Int64)
  | floatSteps (next last step : Float)

namespace Iteration

/-- No iteration is left. -/
def done : Iteration := items []

/-- What a value is gone through as. -/
def ofValue? : Value → Option Iteration
  | .array a => some (items a.toList)
  | .text s => some (items (s.toList.map Value.char))
  | .blob b => some (items (b.toList.map fun x => .int (Int64.ofNat x.toNat)))
  | .chars cs => some (items (cs.map Value.char))
  | .bits bs => some (items (bs.map Value.bool))
  | .range a b i => some (numbers a b i)
  | .steps a b s => some (if (a < b && 0 < s) || (b < a && s < 0) then steps a b s else done)
  | .floatSteps a b s =>
    some (if (a < b && 0.0 < s) || (b < a && s < 0.0) then floatSteps a b s else done)
  | _ => none

/-- The next value, and what is left behind it. -/
def next? : Iteration → Option (Value × Iteration)
  | items [] => none
  | items (v :: rest) => some (v, items rest)
  | numbers a b inclusive =>
    if a < b then some (.int a, numbers (a + 1) b inclusive)
    else if inclusive && a == b then some (.int a, done)
    else none
  | steps a b s =>
    let following := a.toInt + s.toInt
    if following < Int64.minValue.toInt ∨ Int64.maxValue.toInt < following then none
    else
      let n := Int64.ofInt following
      let more := if 0 < s then n < b else b < n
      some (.int a, if more then steps n b s else done)
  | floatSteps a b s =>
    let n := a + s
    let more := if 0.0 < s then n < b else b < n
    some (.float a, if more then floatSteps n b s else done)

end Iteration

end ScriptedActions.Script
