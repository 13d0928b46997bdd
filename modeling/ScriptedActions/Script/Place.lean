/-!
# Places in a script

A line and a position in it, both counted from one; a position counts characters. Some values
and faults belong to no place.
-/

set_option autoImplicit false

namespace ScriptedActions.Script

/-- A place in a script; line zero stands for no place. -/
structure Place where
  line : Nat
  column : Nat
deriving DecidableEq, Repr, Inhabited

namespace Place

/-- No place. -/
def none : Place := ⟨0, 0⟩

/-- Whether this is no place. -/
def isNone (p : Place) : Bool := p.line == 0

/-- The place, or another one if it is none. -/
def or (p q : Place) : Place := if p.isNone then q else p

/-- One character further on. -/
def next (p : Place) : Place := ⟨p.line, p.column + 1⟩

/-- In front of the first character of the next line. -/
def newLine (p : Place) : Place := ⟨p.line + 1, 0⟩

/-- The wording of a place: `line 1, position 2`, or `none`. -/
def text (p : Place) : String :=
  if p.isNone then "none"
  else if p.column = 0 then "line " ++ toString p.line
  else "line " ++ toString p.line ++ ", position " ++ toString p.column

/-- A message with the place behind it, unless there is none. -/
def suffix (p : Place) (message : String) : String :=
  if p.isNone then message else message ++ " (" ++ p.text ++ ")"

end Place

end ScriptedActions.Script
