import ScriptedActions.Decimal.Layout
import ScriptedActions.Json.Printer
import ScriptedActions.Script.Value
import ScriptedActions.Text.Quoted

/-!
# How values are shown

A value has two texts. `display` is what it says: a text is shown as it is and the unit says
nothing. `debug` is what it is: text in quotes, the unit as `()`. Arrays and object maps show
their contents by the second text whichever way they are shown themselves.

`toText` and `toDebug` are what a script gets when it asks for these texts; they differ from the
others in how a reply object inside an array is shown.
-/

set_option autoImplicit false

namespace ScriptedActions.Script

/-- Floats inside containers have an exponent below `0.0001` and from `1e16` on. -/
def debugLayout : Decimal.Layout := ⟨-4, 15, ".0", false, "NaN"⟩

/-- Floats without an exponent. -/
def plainLayout : Decimal.Layout := ⟨-400, 400, ".0", false, "NaN"⟩

/-- Floats with an exponent. -/
def exponentLayout : Decimal.Layout := ⟨1, 0, ".0", false, "NaN"⟩

/-- The greatest magnitude of a float that is shown without an exponent: ten billions of
thousands, as a float of half the width holds it. -/
def greatestPlain : Float := 9999999827968.0

/-- The least magnitude of a float that is shown without an exponent: a ten-billionth of a
thousandth, as a float of half the width holds it. -/
def leastPlain : Float := 9.9999998245167e-14

/-- The text of a float that stands alone. -/
def floatText (x : Float) : String :=
  let a := x.abs
  if a == 0.0 then "0.0"
  else if a > greatestPlain || a < leastPlain then exponentLayout.write x
  else plainLayout.write x

namespace Value

/-- The two hexadecimal digits of a byte. -/
def byteText (b : UInt8) : String := Json.hexByte b.toNat

/-- The bytes of a blob, in groups of eight. -/
def blobText (bs : Array UInt8) : String :=
  let go := bs.toList.foldl (fun (t, i) b =>
    ((if i ≠ 0 && i % 8 = 0 then t ++ " " else t) ++ byteText b, i + 1)) ("[", 0)
  go.1 ++ "]"

/-- A range as a script writes it. -/
def rangeText (first last : Int64) (inclusive : Bool) : String :=
  toString first.toInt ++ (if inclusive then "..=" else "..") ++ toString last.toInt

/-- Values that are shown alike by both texts. -/
def plain (reply : Nat → String) : Value → String
  | bool b => if b then "true" else "false"
  | int n => toString n.toInt
  | blob bs => blobText bs
  | range a b i => rangeText a b i
  | fn name _ _ _ => "Fn(" ++ name ++ ")"
  | ScriptedActions.Script.Value.reply r => reply r
  | instant _ => "<timestamp>"
  | v => v.typeName

mutual

/-- What a value is. -/
def debugWith (reply : Nat → String) : Value → String
  | unit => "()"
  | float x => debugLayout.write x
  | char c => Text.quotedChar c
  | text s => Text.quoted s
  | array ⟨items⟩ => "[" ++ debugItems reply items ++ "]"
  | map entries => "#\x7b" ++ debugEntries reply entries ++ "\x7d"
  | v => plain reply v

/-- The items of an array, with commas between them. -/
def debugItems (reply : Nat → String) : List Value → String
  | [] => ""
  | [v] => debugWith reply v
  | v :: rest => debugWith reply v ++ ", " ++ debugItems reply rest

/-- The entries of an object map, with commas between them. -/
def debugEntries (reply : Nat → String) : List (String × Value) → String
  | [] => ""
  | [(k, v)] => Text.quoted k ++ ": " ++ debugWith reply v
  | (k, v) :: rest =>
    Text.quoted k ++ ": " ++ debugWith reply v ++ ", " ++ debugEntries reply rest

end

/-- What a value is, for a diagnostic; a reply object shows its type. -/
def debug : Value → String := debugWith fun version => (Value.reply version).rawType

/-- What a value says, for a diagnostic. -/
def display : Value → String
  | unit => ""
  | float x => floatText x
  | char c => c.toString
  | text s => s
  | v => v.debug

/-- What a value is, for a script that asks; `render` writes the version of a reply object. -/
def toDebug (render : Nat → String) : Value → String :=
  debugWith fun version => "reply " ++ render version

/-- What a value says, for a script that asks. -/
def toText (render : Nat → String) : Value → String
  | unit => ""
  | float x => floatText x
  | char c => c.toString
  | text s => s
  | reply version => render version
  | v => v.toDebug render

end Value

end ScriptedActions.Script
