import ScriptedActions.Decimal.Reading
import ScriptedActions.Script.Library.Native
import ScriptedActions.Text.Blank

/-!
# Numbers, characters and ranges

The native functions on numbers: signs and parity, rounding, roots and trigonometry, reading
numbers, and the ranges of them.
-/

set_option autoImplicit false

namespace ScriptedActions.Script.Library

open Computed

/-- The value of a digit in bases up to thirty-six. -/
def digitOf (c : Char) : Option Nat :=
  if '0' ≤ c ∧ c ≤ '9' then some (c.toNat - 48)
  else if 'a' ≤ c ∧ c ≤ 'z' then some (c.toNat - 87)
  else if 'A' ≤ c ∧ c ≤ 'Z' then some (c.toNat - 55)
  else none

/-- Digits as a number, if all of them are digits of the base. -/
def digits? (radix : Nat) (cs : List Char) : Option Nat :=
  cs.foldlM (fun n c => do
    let d ← digitOf c
    if d < radix then some (n * radix + d) else none) 0

/-- Reads an integer in some base. -/
def parseInt (s : String) (radix : Nat) : Except String Int64 :=
  let (negative, cs) := match s.toList with
    | '-' :: rest => (true, rest)
    | '+' :: rest => (false, rest)
    | cs => (false, cs)
  if s.isEmpty then .error "cannot parse integer from empty string"
  else if cs.isEmpty then .error "invalid digit found in string"
  else match digits? radix cs with
    | none => .error "invalid digit found in string"
    | some n =>
      let i : Int := if negative then -n else n
      if i < Json.minInt then .error "number too small to fit in target type"
      else if Json.maxInt < i then .error "number too large to fit in target type"
      else .ok (Int64.ofInt i)

/-- Reads a float: digits with at most one point among them, and an exponent. -/
def parseFloat (s : String) : Except String Float :=
  if s.isEmpty then .error "cannot parse float from empty string"
  else
    match Decimal.ofText? s with
    | some x => .ok x
    | none => .error "invalid float literal"

/-- The sign of an integer. -/
def signOf (n : Int64) : Value := .int (if 0 < n then 1 else if n < 0 then -1 else 0)

/-- Floats written without exponents, whole ones without a point. -/
def digitsLayout : Decimal.Layout := ⟨-400, 400, "", false, "NaN"⟩

/-- A float as an integer, its fraction cut off. -/
def wholeOf (x : Float) : Except Cause Value :=
  if x.isNaN then .ok (.int 0)
  else if x > 9223372036854775807.0 || x < -9223372036854775808.0 then
    .error (.arithmetic ("Integer overflow: to_int(" ++ digitsLayout.write x ++ ")"))
  else .ok (.int x.toInt64)

/-- A float without its fraction. -/
def cut (x : Float) : Float := if x < 0.0 then x.ceil else x.floor

/-- Functions of one float. -/
def floatFunction (name : String) : Option (Float → Float) :=
  match name with
  | "sin" => some Float.sin
  | "cos" => some Float.cos
  | "tan" => some Float.tan
  | "sinh" => some Float.sinh
  | "cosh" => some Float.cosh
  | "tanh" => some Float.tanh
  | "asin" => some Float.asin
  | "acos" => some Float.acos
  | "atan" => some Float.atan
  | "asinh" => some Float.asinh
  | "acosh" => some Float.acosh
  | "atanh" => some Float.atanh
  | "sqrt" => some Float.sqrt
  | "exp" => some Float.exp
  | "ln" => some Float.log
  | "log" => some Float.log10
  | "floor" => some Float.floor
  | "ceiling" => some Float.ceil
  | "round" => some Float.round
  | "int" => some cut
  | "fraction" => some fun x => x - cut x
  | "to_degrees" => some fun x => x * (180.0 / 3.141592653589793)
  | "to_radians" => some fun x => x * (3.141592653589793 / 180.0)
  | _ => none

/-- Digits of an integer in a base that is a power of two; a negative integer shows its bits. -/
def inBase (base : Nat) (n : Int64) : Value :=
  .text (String.ofList (Nat.toDigits base n.toUInt64.toNat))

/-- Functions of one integer. -/
def ofInteger (name : String) (n : Int64) : Option Computed :=
  match name with
  | "abs" => some <| .value <| if n.toInt = Json.minInt
      then .error (.arithmetic ("Negation overflow: -" ++ toString n.toInt))
      else .ok (.int (if n < 0 then -n else n))
  | "sign" => ok (signOf n)
  | "is_zero" => ok (.bool (n == 0))
  | "is_odd" => ok (.bool (n.toInt % 2 ≠ 0))
  | "is_even" => ok (.bool (n.toInt % 2 = 0))
  | "to_float" => ok (.float (Float.ofInt n.toInt))
  | "to_int" => ok (.int n)
  | "to_hex" => ok (inBase 16 n)
  | "to_octal" => ok (inBase 8 n)
  | "to_binary" => ok (inBase 2 n)
  | "bits" => ok (.bits ((List.range 64).map fun i => n.toUInt64.toNat.testBit i))
  | _ => none

/-- Functions of one float. -/
def ofFloat (name : String) (x : Float) : Option Computed :=
  match name with
  | "abs" => ok (.float x.abs)
  | "sign" => some <| .value <| if x.isNaN then .error (.arithmetic "Sign of NaN is undefined")
      else .ok (.int (if x == 0.0 then 0 else if x < 0.0 then -1 else 1))
  | "is_zero" => ok (.bool (x == 0.0))
  | "is_nan" => ok (.bool x.isNaN)
  | "is_finite" => ok (.bool x.isFinite)
  | "is_infinite" => ok (.bool x.isInf)
  | "to_int" => some (.value (wholeOf x))
  | name => (floatFunction name).bind fun f => ok (.float (f x))

/-- The greater or the lesser of two numbers. -/
def extreme (name : String) (a b : Value) : Option Computed :=
  let pick (first : Bool) : Option Computed :=
    match name with
    | "max" => ok (if first then a else b)
    | "min" => ok (if first then b else a)
    | _ => none
  match a, b with
  | .int x, .int y => pick (y ≤ x)
  | .float x, .float y => if x.isNaN then ok b else if y.isNaN then ok a else pick (y ≤ x)
  | .int x, .float y =>
    if y.isNaN then ok (.float (Float.ofInt x.toInt))
    else (match name with
      | "max" => ok (.float (if y ≤ Float.ofInt x.toInt then Float.ofInt x.toInt else y))
      | "min" => ok (.float (if y ≤ Float.ofInt x.toInt then y else Float.ofInt x.toInt))
      | _ => none)
  | .float x, .int y =>
    if x.isNaN then ok (.float (Float.ofInt y.toInt))
    else (match name with
      | "max" => ok (.float (if Float.ofInt y.toInt ≤ x then x else Float.ofInt y.toInt))
      | "min" => ok (.float (if Float.ofInt y.toInt ≤ x then Float.ofInt y.toInt else x))
      | _ => none)
  | .char x, .char y => pick (y ≤ x)
  | .text x, .text y => pick (decide (y ≤ x))
  | _, _ => none

/-- A range with a step, or why there is none. -/
def stepped (a b step : Int64) : Computed :=
  if step == 0 then .value (.error (.arithmetic "step value cannot be zero"))
  else .value (.ok (.steps a b step))

/-- `count` bits of an integer from `first` on. -/
def bitStretch (first count : Int) : Except Cause Part :=
  match Part.position? 64 first with
  | none => .error (.bitBounds first)
  | some i => .ok (.bitField i (min count.toNat (64 - i)))

/-- Functions of bits. -/
def ofBits (name : String) (n : Int64) (args : List Value) : Option Computed :=
  let get (first count : Int) : Option Computed :=
    if count ≤ 0 then ok (.int 0)
    else some (.value ((bitStretch first count).map (Part.get (.int n))))
  let put (first count : Int) (v : Value) : Option Computed :=
    if count ≤ 0 then become (.int n)
    else some (.update do
      let part ← bitStretch first count
      pure (.unit, ← Part.put (.int n) part v))
  let range (a b : Int64) (inclusive : Bool) : Int × Int :=
    (a.toInt, (if inclusive then b.toInt + 1 else b.toInt) - a.toInt)
  match name, args with
  | "get_bit", [.int i] => some <| .value <|
    match Part.position? 64 i.toInt with
    | some k => .ok (Part.get (.int n) (.bit k))
    | none => .error (.bitBounds i.toInt)
  | "set_bit", [.int i, .bool b] => some <| .update <|
    match Part.position? 64 i.toInt with
    | some k => do pure (.unit, ← Part.put (.int n) (.bit k) (.bool b))
    | none => .error (.bitBounds i.toInt)
  | "get_bits", [.int i, .int c] => get i.toInt c.toInt
  | "get_bits", [.range a b inc] => get (range a b inc).1 (range a b inc).2
  | "set_bits", [.int i, .int c, .int v] => put i.toInt c.toInt (.int v)
  | "set_bits", [.range a b inc, .int v] => put (range a b inc).1 (range a b inc).2 (.int v)
  | _, _ => none

/-- Functions of ranges. -/
def ofRange (name : String) (a b : Int64) (inclusive : Bool) : Option Computed :=
  match name with
  | "start" => seen (.int a)
  | "end" => seen (.int b)
  | "is_inclusive" => seen (.bool inclusive)
  | "is_exclusive" => seen (.bool (!inclusive))
  | "is_empty" => seen (.bool (if inclusive then decide (b < a) else decide (b ≤ a)))
  | _ => none

/-- The native functions on numbers, characters and ranges. -/
def numbers? (name : String) (args : List Value) : Option Computed :=
  match args with
  | [] =>
    match name with
    | "PI" => ok (.float 3.141592653589793)
    | "E" => ok (.float 2.718281828459045)
    | _ => none
  | [.int n] => ofInteger name n
  | [.float x] => ofFloat name x
  | [.char c] => if name == "to_int" then ok (.int (Int64.ofNat c.toNat)) else none
  | [.range a b i] => ofRange name a b i
  | [.range a b i, .int n] =>
    if name == "contains" then
      seen (.bool (decide (a ≤ n) && (decide (n < b) || (i && n == b))))
    else if name == "range" && !i then some (stepped a b n)
    else none
  | [.text s] =>
    match name with
    | "parse_int" => some <| .value <| (parseInt (Text.trim s) 10).map .int |>.mapError fun e =>
        .arithmetic ("Error parsing integer number '" ++ s ++ "': " ++ e)
    | "parse_float" => some <| .value <| (parseFloat (Text.trim s)).map .float |>.mapError fun e =>
        .arithmetic ("Error parsing floating-point number '" ++ s ++ "': " ++ e)
    | _ => none
  | [.text s, .int r] =>
    if name == "parse_int" then some <| .value <|
      if r < 2 || 36 < r then .error (.arithmetic ("Invalid radix: '" ++ toString r.toInt ++ "'"))
      else (parseInt (Text.trim s) r.toInt.toNat).map .int |>.mapError fun e =>
        .arithmetic ("Error parsing integer number '" ++ s ++ "': " ++ e)
    else none
  | [.float x, .float y] =>
    match name with
    | "log" => ok (.float (x.log / y.log))
    | "atan" => ok (.float (x.atan2 y))
    | "hypot" => ok (.float (x * x + y * y).sqrt)
    | _ => extreme name (.float x) (.float y)
  | [.float x, .float y, .float s] => if name == "range" then ok (.floatSteps x y s) else none
  | [.int a, .int b] =>
    match name with
    | "range" => ok (.range a b false)
    | _ => (extreme name (.int a) (.int b)).orElse fun _ => ofBits name a [.int b]
  | [.int a, .int b, .int s] =>
    if name == "range" then some (stepped a b s) else ofBits name a [.int b, .int s]
  | .int a :: rest =>
    (match rest with
      | [v] => extreme name (.int a) v
      | _ => none).orElse fun _ => ofBits name a rest
  | [a, b] => extreme name a b
  | _ => none

end ScriptedActions.Script.Library
