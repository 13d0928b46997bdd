/-!
# Limits

What a script may use up, when it is compiled and when it runs. A limit of zero is none, with
one exception: the depth of calls is always bounded, by `defaultCallLevels` if not otherwise.
-/

set_option autoImplicit false

namespace ScriptedActions.Script

/-- The limits of a script; zero sets no limit. -/
structure Limits where
  /-- The greatest number of operations of a run. -/
  operations : Nat
  /-- The greatest depth of nested function calls. -/
  callLevels : Nat
  /-- How deep expressions may nest outside functions. -/
  exprDepth : Nat
  /-- How deep expressions may nest inside functions. -/
  functionExprDepth : Nat
  /-- The greatest length of a text, in bytes. -/
  textSize : Nat
  /-- The greatest number of array items. -/
  arraySize : Nat
  /-- The greatest number of entries of an object map. -/
  mapSize : Nat
deriving DecidableEq, Repr, Inhabited

namespace Limits

/-- The limits that hold when nothing else is configured. -/
def standard : Limits := ⟨0, 64, 64, 32, 1048576, 10000, 10000⟩

/-- No limits. -/
def unlimited : Limits := ⟨0, 0, 0, 0, 0, 0, 0⟩

/-- The depth of calls where no limit is set. -/
def defaultCallLevels : Nat := 64

/-- The depth of calls that is enforced. -/
def maxCallLevels (l : Limits) : Nat :=
  if l.callLevels = 0 then defaultCallLevels else l.callLevels

/-- Whether the size of values is limited at all. -/
def boundsData (l : Limits) : Bool := l.textSize ≠ 0 || l.arraySize ≠ 0 || l.mapSize ≠ 0

end Limits

end ScriptedActions.Script
