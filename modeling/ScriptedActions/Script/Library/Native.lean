import ScriptedActions.Script.Access
import ScriptedActions.Script.Machine
import ScriptedActions.Script.Operators

/-!
# Functions that come with the interpreter

A native function is found by its name and by its arguments. Most only compute something, which
is a `Computed`; the others act on the run. A function that looks at its first argument in place,
or changes it, can be called as a method of a variable, of an item or of a property, which is then
written back.
-/

set_option autoImplicit false

namespace ScriptedActions.Script

/-- What a native function computes. -/
inductive Computed where
  /-- It computes a value. -/
  | value (r : Except Cause Value)
  /-- It computes a value from its first argument, which it looks at in place. -/
  | view (r : Except Cause Value)
  /-- It computes a value and what its first argument becomes. -/
  | update (r : Except Cause (Value × Value))

/-- What a native function does. -/
inductive Native where
  | computes (c : Computed)
  /-- It acts on the run, or on its first argument, which is in focus, and may call functions of
  the script. -/
  | act (mutates : Bool) (run : Eval Value)

namespace Computed

/-- A function that only changes its first argument. -/
def become (v : Value) : Option Computed := some (.update (.ok (.unit, v)))

/-- A function that has a value. -/
def ok (v : Value) : Option Computed := some (.value (.ok v))

/-- A function that has a value and looks at its first argument in place. -/
def seen (v : Value) : Option Computed := some (.view (.ok v))

/-- A function that has a value and changes its first argument. -/
def both (result first : Value) : Option Computed := some (.update (.ok (result, first)))

/-- A function that fails. -/
def fails (c : Cause) : Option Computed := some (.value (.error c))

end Computed

namespace Native

/-- Whether a function changes its first argument. -/
def mutates : Native → Bool
  | computes (.update _) => true
  | computes _ => false
  | act m _ => m

/-- Whether a function takes its first argument in place. -/
def inPlace : Native → Bool
  | computes (.value _) => false
  | _ => true

end Native

/-! ## Stretches of a sequence -/

namespace Stretch

/-- Where a stretch of a sequence of `n` things starts and how long it is. A negative start counts
from the end; what reaches beyond the sequence is cut off. -/
def within (n : Nat) (start len : Int) : Nat × Nat :=
  if n = 0 then (0, 0)
  else
    let first := if start < 0 then n - min (-start).toNat n else min start.toNat n
    let count := if len ≤ 0 then 0 else min len.toNat (n - first)
    (first, count)

/-- The stretch that a range names: its start and its length. -/
def ofRange (a b : Int64) (inclusive : Bool) : Int × Int :=
  let first := max 0 a.toInt
  let last := max first (if inclusive then b.toInt + 1 else b.toInt)
  (first, last - first)

/-- The greatest length. -/
def whole : Int := 9223372036854775807

/-- The integer of a length. -/
def count (n : Nat) : Value := .int (Int64.ofNat n)

end Stretch

end ScriptedActions.Script
