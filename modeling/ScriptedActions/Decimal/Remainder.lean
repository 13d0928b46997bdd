import ScriptedActions.Decimal.Shortest

/-!
# Remainders of floats

The remainder of a division of floats whose quotient is cut to a whole number: it has the sign of
the dividend and is exact, since it is a multiple of the smaller of the two units and not longer
than the divisor.
-/

set_option autoImplicit false

namespace ScriptedActions.Decimal

/-- What is left of `x` when as many whole `y` as possible are taken away. -/
def remainder (x y : Float) : Float :=
  if x.isNaN || y.isNaN || x.isInf || y == 0.0 then 0.0 / 0.0
  else if y.isInf then x
  else
    let a := Binary.ofBits x.toBits
    let b := Binary.ofBits y.toBits
    let e := min a.exponent b.exponent
    let r := a.mantissa * Nat.pow 2 (a.exponent - e).toNat % (b.mantissa * Nat.pow 2 (b.exponent - e).toNat)
    let magnitude := Float.scaleB (Float.ofNat r) e
    if 0x8000000000000000 ≤ x.toBits.toNat then -magnitude else magnitude

end ScriptedActions.Decimal
