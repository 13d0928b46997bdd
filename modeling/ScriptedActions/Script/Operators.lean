import ScriptedActions.Decimal.Remainder
import ScriptedActions.Script.Fault

/-!
# Operators

What the operators of scripts do with values. Integers have 64 bits and every result that does
not fit is a fault; a float on either side makes floats of both. Values of different kinds are
never equal and stand in no order. A text takes every value at its end, as the text of that value.

`binary op a b` is `none` where the operator has no meaning for such values.
-/

set_option autoImplicit false

namespace ScriptedActions.Script

/-- The types of the operands of a call, as diagnostics show them. -/
def signature (name : String) (args : List Value) : String :=
  name ++ " (" ++ String.intercalate ", " (args.map Value.signatureType) ++ ")"

namespace Operator

/-- The integer, if it fits into 64 bits. -/
def fit (n : Int) (problem : String) : Except Cause Value :=
  if Json.minInt ≤ n ∧ n ≤ Json.maxInt then .ok (.int (Int64.ofInt n))
  else .error (.arithmetic problem)

/-- The bits of an integer moved up by `n` places; a negative `n` moves them down. Moved down, the
sign moves in from above. -/
def shift (x : Int64) (n : Int) : Int64 :=
  if 0 ≤ n then if 64 ≤ n then 0 else x <<< Int64.ofInt n
  else if n ≤ -64 then if x < 0 then -1 else 0
  else x >>> Int64.ofInt (-n)

/-- A power of an integer. -/
def power (a b : Int) : Except Cause Value :=
  let shown := toString a ++ " ** " ++ toString b
  if 4294967295 < b then .error (.arithmetic ("Integer raised to too large an index: " ++ shown))
  else if b < 0 then .error (.arithmetic ("Integer raised to a negative power: " ++ shown))
  else if a = 0 ∨ a = 1 then .ok (.int (if b = 0 then 1 else Int64.ofInt a))
  else if a = -1 then .ok (.int (if b % 2 = 0 then 1 else -1))
  else if 64 ≤ b then .error (.arithmetic ("Exponential overflow: " ++ shown))
  else fit (Int.pow a b.toNat) ("Exponential overflow: " ++ shown)

/-- Arithmetic of integers. -/
def ints (op : String) (x y : Int64) : Option (Except Cause Value) :=
  let a := x.toInt
  let b := y.toInt
  let shown := toString a ++ " " ++ op ++ " " ++ toString b
  match op with
  | "+" => some (fit (a + b) ("Addition overflow: " ++ shown))
  | "-" => some (fit (a - b) ("Subtraction overflow: " ++ shown))
  | "*" => some (fit (a * b) ("Multiplication overflow: " ++ shown))
  | "/" => some <|
    if b = 0 then .error (.arithmetic ("Division by zero: " ++ shown))
    else fit (a.tdiv b) ("Division overflow: " ++ shown)
  | "%" => some <|
    if b = 0 ∨ (b = -1 ∧ a = Json.minInt) then
      .error (.arithmetic ("Modulo division by zero or overflow: " ++ shown))
    else fit (a.tmod b) ("Modulo division by zero or overflow: " ++ shown)
  | "**" => some (power a b)
  | "<<" => some (.ok (.int (shift x b)))
  | ">>" => some (.ok (.int (shift x (-b))))
  | "&" => some (.ok (.int (x &&& y)))
  | "|" => some (.ok (.int (x ||| y)))
  | "^" => some (.ok (.int (x ^^^ y)))
  | ".." => some (.ok (.range x y false))
  | "..=" => some (.ok (.range x y true))
  | _ => none

/-- Arithmetic of floats. -/
def floats (op : String) (x y : Float) : Option (Except Cause Value) :=
  match op with
  | "+" => some (.ok (.float (x + y)))
  | "-" => some (.ok (.float (x - y)))
  | "*" => some (.ok (.float (x * y)))
  | "/" => some (.ok (.float (x / y)))
  | "%" => some (.ok (.float (Decimal.remainder x y)))
  | "**" => some (.ok (.float (x.pow y)))
  | _ => none

/-- What is left of a text without all occurrences of another. -/
def without (s t : String) : String := if t.isEmpty then s else s.replace t ""

/-- Comparisons of two things that are ordered; `none` for the other operators. -/
def compared (op : String) (equal less more : Bool) : Option (Except Cause Value) :=
  match op with
  | "==" => some (.ok (.bool equal))
  | "!=" => some (.ok (.bool (!equal)))
  | "<" => some (.ok (.bool less))
  | "<=" => some (.ok (.bool (less || equal)))
  | ">" => some (.ok (.bool more))
  | ">=" => some (.ok (.bool (more || equal)))
  | _ => none

/-- Comparisons of texts, by code points. -/
def textOrder (op s t : String) : Option (Except Cause Value) :=
  compared op (s == t) (decide (s < t)) (decide (t < s))

/-- A float for a number. -/
def asFloat : Value → Option Float
  | .int n => some (Float.ofInt n.toInt)
  | .float x => some x
  | _ => none

/-- Comparisons of floats; nothing is ordered against what is not a number. -/
def floatOrder (op : String) (x y : Float) : Option (Except Cause Value) :=
  match op with
  | "==" => some (.ok (.bool (x == y)))
  | "!=" => some (.ok (.bool (x != y)))
  | "<" => some (.ok (.bool (x < y)))
  | "<=" => some (.ok (.bool (x ≤ y)))
  | ">" => some (.ok (.bool (y < x)))
  | ">=" => some (.ok (.bool (y ≤ x)))
  | _ => none

/-- Comparisons of bits. -/
def boolOrder (op : String) (a b : Bool) : Option (Except Cause Value) :=
  compared op (a == b) (!a && b) (a && !b)

/-- Comparisons of values of kinds that are neither equal nor ordered. -/
def unlike (op : String) : Option (Except Cause Value) := compared op false false false

mutual

/-- Whether two values are equal. -/
def equal : Value → Value → Except Cause Bool
  | .unit, .unit => .ok true
  | .bool a, .bool b => .ok (a == b)
  | .int a, .int b => .ok (a == b)
  | .float a, .float b => .ok (a == b)
  | .int a, .float b => .ok (Float.ofInt a.toInt == b)
  | .float a, .int b => .ok (a == Float.ofInt b.toInt)
  | .char a, .char b => .ok (a == b)
  | .text a, .text b => .ok (a == b)
  | .char a, .text b => .ok (b == a.toString)
  | .text a, .char b => .ok (a == b.toString)
  | .blob a, .blob b => .ok (a == b)
  | .range a b i, .range c d j => .ok (a == c && b == d && i == j)
  | .instant a, .instant b => .ok (a == b)
  | .array ⟨a⟩, .array ⟨b⟩ => if a.length = b.length then equalItems a b else .ok false
  | .map a, .map b => if a.length = b.length then equalEntries a b else .ok false
  | .fn n f h c, .fn m g k d =>
    .error (.functionNotFound (signature "==" [.fn n f h c, .fn m g k d]))
  | .undeclared n, .undeclared m =>
    .error (.functionNotFound (signature "==" [.undeclared n, .undeclared m]))
  | _, _ => .ok false

/-- Whether two arrays of one length have equal items. -/
def equalItems : List Value → List Value → Except Cause Bool
  | v :: a, w :: b => do if ← equal v w then equalItems a b else pure false
  | _, _ => .ok true

/-- Whether two object maps of one size have equal entries. -/
def equalEntries : List (String × Value) → List (String × Value) → Except Cause Bool
  | (k, v) :: a, (l, w) :: b => do
    if k = l then if ← equal v w then equalEntries a b else pure false
    else pure false
  | _, _ => .ok true

end

/-- The outcome of a test for equality, or of one for the opposite. -/
def equality (op : String) (r : Except Cause Bool) : Option (Except Cause Value) :=
  match op with
  | "==" => some (r.map .bool)
  | "!=" => some (r.map fun b => .bool (!b))
  | _ => none

/-- Both object maps together; an entry of the second one wins. -/
def merged (a b : List (String × Value)) : List (String × Value) :=
  b.foldl (fun t e => Table.insert t e.1 e.2) a

/-- A difference of moments, in seconds. -/
def seconds (a b : Nat) : Float :=
  Float.ofInt ((a : Int) - b) / 1000000000.0

/-- A moment, some seconds later. -/
def later (a : Nat) (s : Float) : Nat :=
  let d := (s.abs * 1000000000.0).toUInt64.toNat
  if s < 0.0 then a - d else a + d

/-- The value of an operator with two operands; `render` writes a version of a reply object. -/
def binary (render : Nat → String) (op : String) (a b : Value) : Option (Except Cause Value) :=
  match a, b with
  | .int x, .int y =>
    (ints op x y).orElse fun _ => compared op (x == y) (decide (x < y)) (decide (y < x))
  | .float x, .float y => (floats op x y).orElse fun _ => floatOrder op x y
  | .int x, .float y =>
    (floats op (Float.ofInt x.toInt) y).orElse fun _ => floatOrder op (Float.ofInt x.toInt) y
  | .float x, .int y =>
    (floats op x (Float.ofInt y.toInt)).orElse fun _ => floatOrder op x (Float.ofInt y.toInt)
  | .bool x, .bool y =>
    match op with
    | "&" => some (.ok (.bool (x && y)))
    | "|" => some (.ok (.bool (x || y)))
    | "^" => some (.ok (.bool (x != y)))
    | _ => boolOrder op x y
  | .unit, .unit => compared op true false false |>.map fun
      | .ok (.bool r) => .ok (.bool (r && op == "=="))
      | r => r
  | .text s, .text t =>
    match op with
    | "+" => some (.ok (.text (s ++ t)))
    | "-" => some (.ok (.text (without s t)))
    | _ => textOrder op s t
  | .text s, .char c =>
    match op with
    | "+" => some (.ok (.text (s.push c)))
    | "-" => some (.ok (.text (without s c.toString)))
    | _ => textOrder op s c.toString
  | .char c, .text s =>
    match op with
    | "+" => some (.ok (.text (c.toString ++ s)))
    | _ => textOrder op c.toString s
  | .char c, .char d =>
    match op with
    | "+" => some (.ok (.text (c.toString.push d)))
    | _ => compared op (c == d) (decide (c < d)) (decide (d < c))
  | .array x, .array y =>
    match op with
    | "+" => some (.ok (.array (x ++ y)))
    | _ => equality op (equal a b)
  | .blob x, .blob y =>
    match op with
    | "+" => some (.ok (.blob (x ++ y)))
    | _ => equality op (equal a b)
  | .map x, .map y =>
    match op with
    | "+" => some (.ok (.map (merged x y)))
    | _ => equality op (equal a b)
  | .range _ _ i, .range _ _ j =>
    if i == j then equality op (equal a b) else unlike op
  | .instant x, .instant y =>
    match op with
    | "-" => some (.ok (.float (seconds x y)))
    | _ => compared op (x == y) (decide (x < y)) (decide (y < x))
  | .instant x, .int y =>
    match op with
    | "+" => some (.ok (.instant (later x (Float.ofInt y.toInt))))
    | "-" => some (.ok (.instant (later x (-(Float.ofInt y.toInt)))))
    | _ => unlike op
  | .instant x, .float y =>
    match op with
    | "+" => some (.ok (.instant (later x y)))
    | "-" => some (.ok (.instant (later x (-y))))
    | _ => unlike op
  | .reply _, .reply _ => equality op (.ok false)
  | .text s, v =>
    match op with
    | "+" => some (.ok (.text (s ++ v.toText render)))
    | _ => unlike op
  | v, .text s =>
    match op with
    | "+" => some (.ok (.text (v.toText render ++ s)))
    | _ => unlike op
  | v, w => if v.sameKind w then none else unlike op

/-- The value of an operator with one operand. -/
def unary (op : String) (v : Value) : Option (Except Cause Value) :=
  match op, v with
  | "!", .bool b => some (.ok (.bool (!b)))
  | "-", .int n => some (fit (-n.toInt) ("Negation overflow: -" ++ toString n.toInt))
  | "-", .float x => some (.ok (.float (-x)))
  | "+", .int n => some (.ok (.int n))
  | "+", .float x => some (.ok (.float x))
  | _, _ => none

/-- The value of a variable after an assignment that combines its value with another one, where
that differs from the operator itself. -/
def combined (render : Nat → String) (op : String) (a b : Value) : Option (Except Cause Value) :=
  match op, a, b with
  | "+", .array x, .array y => some (.ok (.array (x ++ y)))
  | "+", .array x, v => some (.ok (.array (x.push v)))
  | "+", .blob x, .int n => some (.ok (.blob (x.push (UInt8.ofInt n.toInt))))
  | "+", .blob x, .text s => some (.ok (.blob (x ++ s.toUTF8.data)))
  | "+", .blob x, .char c => some (.ok (.blob (x ++ c.toString.toUTF8.data)))
  | _, _, _ => binary render op a b

end Operator

end ScriptedActions.Script
