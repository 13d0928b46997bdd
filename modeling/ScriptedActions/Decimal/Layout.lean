import ScriptedActions.Decimal.Shortest

/-!
# Layouts of floats

How the shortest digits of a float are written down: with or without an exponent, with or
without a point in a whole number. A `Layout` holds the choices that a format makes; each
format that prints floats has one.
-/

set_option autoImplicit false

namespace ScriptedActions.Decimal

/-- The choices of a format that writes floats. -/
structure Layout where
  /-- The least exponent of the leading digit that is written without an exponent. -/
  least : Int
  /-- The greatest exponent of the leading digit that is written without an exponent. -/
  greatest : Int
  /-- What follows a whole number written without an exponent. -/
  whole : String
  /-- Whether a positive exponent has a sign. -/
  plus : Bool
  /-- Text of what is not a number. -/
  nan : String
deriving Repr

/-- The exponent of the leading digit. -/
def Digits.leading (d : Digits) : Int := d.exponent + length d.coefficient - 1

/-- A row of zeros. -/
def zeros (n : Nat) : String := "".pushn '0' n

/-- The digits without an exponent; `whole` follows a whole number. -/
def Digits.positional (d : Digits) (whole : String) : String :=
  let text := toString d.coefficient
  if 0 ≤ d.exponent then text ++ zeros d.exponent.toNat ++ whole
  else
    let places := (-d.exponent).toNat
    if text.length ≤ places then "0." ++ zeros (places - text.length) ++ text
    else
      let cs := text.toList
      String.ofList (cs.take (cs.length - places)) ++ "." ++
        String.ofList (cs.drop (cs.length - places))

/-- The digits with one of them in front of the point, and an exponent. -/
def Digits.scientific (d : Digits) (plus : Bool) : String :=
  let mantissa := match (toString d.coefficient).toList with
    | [] => "0"
    | [c] => c.toString
    | c :: cs => c.toString ++ "." ++ String.ofList cs
  let e := d.leading
  mantissa ++ "e" ++ (if plus && 0 ≤ e then "+" else "") ++ toString e

/-- Writes a float. -/
def Layout.write (l : Layout) (x : Float) : String :=
  if x.isNaN then l.nan
  else
    let sign := if x.toBits &&& 0x8000000000000000 == 0 then "" else "-"
    if x.isInf then sign ++ "inf"
    else
      let d := shortest x
      sign ++
        if d.coefficient = 0 ∨ (l.least ≤ d.leading ∧ d.leading ≤ l.greatest) then
          d.positional l.whole
        else d.scientific l.plus

end ScriptedActions.Decimal
