/-!
# Shortest decimals

A finite 64-bit float is `m · 2 ^ q` for natural `m`. Many decimals read back as the same float:
those of an interval around it, whose ends belong to it when `m` is even. `shortest` finds the
decimal of that interval with the fewest digits, and of several the one nearest to the float.

The search runs over the grids of one digit, two digits and so on up to seventeen. If a point
of a grid lies in the interval then so does one of the two grid points next to the float, so
these two are all that has to be looked at. All arithmetic is exact, on natural numbers.
-/

set_option autoImplicit false

namespace ScriptedActions.Decimal

/-- The number `coefficient · 10 ^ exponent`. -/
structure Digits where
  coefficient : Nat
  exponent : Int
deriving DecidableEq, Repr

/-- The positive number `mantissa · 2 ^ exponent`, and whether the next float below it is only
half as far away as the next one above. -/
structure Binary where
  mantissa : Nat
  exponent : Int
  narrowBelow : Bool
deriving DecidableEq, Repr

/-- The magnitude of a finite float, read off its bits. -/
def Binary.ofBits (bits : UInt64) : Binary :=
  let fraction : Nat := bits.toNat % 0x10000000000000
  let biased : Nat := bits.toNat / 0x10000000000000 % 0x800
  if biased = 0 then ⟨fraction, -1074, false⟩
  else ⟨0x10000000000000 + fraction, (biased : Int) - 1075, fraction = 0 && 1 < biased⟩

/-- Number of decimal digits of a natural number. -/
def length (n : Nat) : Nat := (Nat.toDigits 10 n).length

/-- The exponent of the leading digit of the positive fraction `num / den`. -/
def leadingExponent (num den : Nat) : Int :=
  if den ≤ num then (length (num / den) : Int) - 1
  else
    let n := length (den / num)
    if den ≤ num * Nat.pow 10 (n - 1) then 1 - (n : Int) else -(n : Int)

/-- Compares `c · 10 ^ e` with the fraction `num / den`. -/
def comparePoint (c : Nat) (e : Int) (num den : Nat) : Ordering :=
  if 0 ≤ e then compare (c * Nat.pow 10 e.toNat * den) num
  else compare (c * den) (num * Nat.pow 10 (-e).toNat)

/-- The largest natural number whose multiple of `10 ^ e` is at most `num / den`. -/
def floorPoint (e : Int) (num den : Nat) : Nat :=
  if 0 ≤ e then num / (den * Nat.pow 10 e.toNat) else num * Nat.pow 10 (-e).toNat / den

/-- The decimals that read back as a given float: all that lie between `low / den` and
`high / den`, the ends included or not. -/
structure Interval where
  low : Nat
  value : Nat
  high : Nat
  den : Nat
  closed : Bool
deriving Repr

/-- The interval of a float, in quarters of the distance to the float above it. -/
def Binary.interval (b : Binary) : Interval :=
  let scale : Nat := Nat.pow 2 (b.exponent - 2).toNat
  { low := (4 * b.mantissa - if b.narrowBelow then 1 else 2) * scale
    value := 4 * b.mantissa * scale
    high := (4 * b.mantissa + 2) * scale
    den := Nat.pow 2 (2 - b.exponent).toNat
    closed := b.mantissa % 2 = 0 }

/-- Whether `c · 10 ^ e` lies in the interval. -/
def Interval.contains (i : Interval) (c : Nat) (e : Int) : Bool :=
  (match comparePoint c e i.low i.den with
    | .lt => false
    | .eq => i.closed
    | .gt => true) &&
  (match comparePoint c e i.high i.den with
    | .lt => true
    | .eq => i.closed
    | .gt => false)

/-- Of the two points of the grid `10 ^ e` next to the float the one that lies in the interval;
of two the nearer, and the upper one if both are equally near. -/
def Interval.onGrid (i : Interval) (e : Int) : Option Nat :=
  let c := floorPoint e i.value i.den
  match i.contains c e, i.contains (c + 1) e with
  | true, false => some c
  | false, true => some (c + 1)
  | false, false => none
  | true, true =>
    -- the float against the middle of the two points
    match comparePoint (10 * c + 5) (e - 1) i.value i.den with
    | .gt => some c
    | _ => some (c + 1)

/-- Strips the zeros at the end of the coefficient; `fuel` bounds their number. -/
def stripZeros : Nat → Digits → Digits
  | 0, d => d
  | fuel + 1, d =>
    if d.coefficient ≠ 0 ∧ d.coefficient % 10 = 0 then
      stripZeros fuel ⟨d.coefficient / 10, d.exponent + 1⟩
    else d

/-- Tries the grids of `n`, `n + 1`, … digits, `fuel` of them. -/
def Interval.search (i : Interval) (top : Int) : Nat → Nat → Digits
  | 0, n => ⟨floorPoint (top - n) i.value i.den, top - n⟩
  | fuel + 1, n =>
    match i.onGrid (top + 1 - n) with
    | some c => ⟨c, top + 1 - n⟩
    | none => i.search top fuel (n + 1)

/-- The shortest decimal that reads back as the magnitude of a finite float. -/
def shortest (x : Float) : Digits :=
  let b := Binary.ofBits x.toBits
  if b.mantissa = 0 then ⟨0, 0⟩
  else
    let i := b.interval
    stripZeros 20 (i.search (leadingExponent i.value i.den) 17 1)

end ScriptedActions.Decimal
