import ScriptedActions.Decimal.Layout
import ScriptedActions.Json.Value

/-!
# Printing JSON

The text of a value, without blanks. A whole number has its decimal digits, a float the
shortest digits that read back, always with a point or an exponent, and what is no number or
has no end is `null`.
-/

set_option autoImplicit false

namespace ScriptedActions.Json

/-- Floats are written without an exponent from `0.00001` up to below `1e+16`. -/
def floatLayout : Decimal.Layout := ⟨-5, 15, ".0", true, "null"⟩

/-- The text of a float. -/
def floatText (x : Float) : String :=
  if x.isNaN || x.isInf then "null" else floatLayout.write x

/-- The two lower-case hexadecimal digits of a code below 256. -/
def hexByte (n : Nat) : String :=
  let d := Nat.toDigits 16 n
  String.ofList (if d.length < 2 then '0' :: d else d)

/-- A character inside a string: quotes, backslashes and controls are escaped. -/
def escapeChar (c : Char) : String :=
  if c == '"' then "\\\""
  else if c == '\\' then "\\\\"
  else if c == '\n' then "\\n"
  else if c == '\r' then "\\r"
  else if c == '\t' then "\\t"
  else if c.toNat == 8 then "\\b"
  else if c.toNat == 12 then "\\f"
  else if c.toNat < 0x20 then "\\u00" ++ hexByte c.toNat
  else c.toString

/-- The text of a string. -/
def stringText (s : String) : String :=
  s.toList.foldl (fun t c => t ++ escapeChar c) "\"" ++ "\""

mutual

/-- The text of a value. -/
def render : Json → String
  | null => "null"
  | bool b => if b then "true" else "false"
  | int n => toString n
  | float x => floatText x
  | string s => stringText s
  | array items => "[" ++ renderItems items ++ "]"
  | object members => "\x7b" ++ renderMembers members ++ "\x7d"

/-- The items of an array, with commas between them. -/
def renderItems : List Json → String
  | [] => ""
  | [v] => render v
  | v :: rest => render v ++ "," ++ renderItems rest

/-- The members of an object, with commas between them. -/
def renderMembers : List (String × Json) → String
  | [] => ""
  | [(k, v)] => stringText k ++ ":" ++ render v
  | (k, v) :: rest => stringText k ++ ":" ++ render v ++ "," ++ renderMembers rest

end

end ScriptedActions.Json
