/-!
# Reading decimals

The float nearest to a decimal, and the float that a text stands for. A decimal far outside the
range of floats is answered without building its power of ten.
-/

set_option autoImplicit false

namespace ScriptedActions.Decimal

/-- The float nearest to `coefficient · 10 ^ exponent`. -/
def nearest (coefficient : Nat) (exponent : Int) : Float :=
  if coefficient = 0 then 0.0
  else
    let leading := exponent + (Nat.toDigits 10 coefficient).length
    if 400 < leading then 1.0 / 0.0
    else if leading < -400 then 0.0
    else if 0 ≤ exponent then Float.ofScientific coefficient false exponent.toNat
    else Float.ofScientific coefficient true (-exponent).toNat

/-- The number of decimal digits. -/
def ofDigits (cs : List Char) : Nat := cs.foldl (fun n c => n * 10 + (c.toNat - 48)) 0

/-- A sign at the start of a text, if there is one; whether it is a minus, and what follows. -/
def splitSign : List Char → Bool × List Char
  | '-' :: rest => (true, rest)
  | '+' :: rest => (false, rest)
  | cs => (false, cs)

/-- The exponent at the end of a decimal: zero if nothing is left of the text. -/
def exponent? : List Char → Option Int
  | [] => some 0
  | e :: rest =>
    let (negative, ds) := splitSign rest
    if (e = 'e' ∨ e = 'E') ∧ !ds.isEmpty ∧ ds.all Char.isDigit then
      some (if negative then -(ofDigits ds : Int) else ofDigits ds)
    else none

/-- A decimal without a sign: digits with at most one point among them, and an exponent. -/
def unsigned? (cs : List Char) : Option Float :=
  let whole := cs.takeWhile Char.isDigit
  let rest := cs.dropWhile Char.isDigit
  let behind := if rest.head? = some '.' then rest.tail else []
  let fraction := behind.takeWhile Char.isDigit
  let rest := if rest.head? = some '.' then behind.dropWhile Char.isDigit else rest
  if whole.isEmpty && fraction.isEmpty then none
  else (exponent? rest).map fun e => nearest (ofDigits (whole ++ fraction)) (e - fraction.length)

/-- The float that a text stands for: a decimal, an infinity or what is not a number, with a sign
or without. -/
def ofText? (s : String) : Option Float :=
  let (negative, cs) := splitSign s.toList
  let lower := String.ofList (cs.map Char.toLower)
  let x :=
    if lower = "inf" ∨ lower = "infinity" then some (1.0 / 0.0 : Float)
    else if lower = "nan" then some (0.0 / 0.0 : Float)
    else unsigned? cs
  x.map fun x => if negative then -x else x

end ScriptedActions.Decimal
