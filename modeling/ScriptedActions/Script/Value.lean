import ScriptedActions.Json.Reader
import ScriptedActions.Script.Syntax
import ScriptedActions.Table

/-!
# Values of scripts

What a script computes with. Numbers, text, arrays and object maps are values in the strict
sense: an assignment copies them. A variable that a closure shares holds a `shared` value, the
number of a cell, and all who hold the number see the same contents. A reply object is a value
too, so a copy of it goes its own way: a value holds the number of a version, versions never
change, and a write to an output makes a new one. Both numbers are looked up in the machine.
-/

set_option autoImplicit false

namespace ScriptedActions.Script

/-- Where a function finds the functions that it calls: those of its own script or module, whose
path is empty for the script that runs. -/
structure Home where
  source : String
  functions : List Function
deriving Inhabited

/-- A value of a script. -/
inductive Value where
  | unit
  | bool (b : Bool)
  | int (n : Int64)
  | float (x : Float)
  | char (c : Char)
  | text (s : String)
  | array (items : Array Value)
  | map (entries : List (String × Value))
  | blob (bytes : Array UInt8)
  /-- The integers from `first` to `last`, which belongs to them if the range is inclusive. -/
  | range (first last : Int64) (inclusive : Bool)
  /-- The integers from `first` on, `step` apart, up to `last`. -/
  | steps (first last step : Int64)
  /-- Floats, `step` apart. -/
  | floatSteps (first last step : Float)
  /-- The characters of a text, one by one. -/
  | chars (cs : List Char)
  /-- The bits of an integer, one by one. -/
  | bits (bs : List Bool)
  /-- A function by its name, with its first arguments; a closure brings its body along. -/
  | fn (name : String) (body : Option Function) (home : Home) (curried : List Value)
  /-- A reply object: the number of a version. -/
  | reply (version : Nat)
  /-- A moment, in nanoseconds since some moment before. -/
  | instant (nanos : Nat)
  /-- What is thrown for a write to an output that is not declared: the number of the attempt. -/
  | undeclared (attempt : Nat)
  /-- What a shared variable holds: the number of a cell. -/
  | shared (cell : Nat)
deriving Inhabited

namespace Value

/-- The name of the type of a value as the interpreter knows it. -/
def rawType : Value → String
  | unit => "()"
  | bool _ => "bool"
  | int _ => "i64"
  | float _ => "f64"
  | char _ => "char"
  | text _ => "string"
  | array _ => "array"
  | map _ => "map"
  | blob _ => "blob"
  | range _ _ false => "core::ops::range::Range<i64>"
  | range _ _ true => "core::ops::range::RangeInclusive<i64>"
  | steps _ _ _ | floatSteps _ _ _ | chars _ | bits _ => "range"
  | fn _ _ _ _ => "Fn"
  | reply _ => "acton_script_agents::script::reply::ReplyObject"
  | instant _ => "timestamp"
  | undeclared _ => "acton_script_agents::script::rhai_engine::UndeclaredOutput"
  | shared _ => "shared"

/-- The name of the type of a value as scripts know it. -/
def typeName : Value → String
  | range _ _ false => "range"
  | range _ _ true => "range="
  | reply _ => "reply"
  | v => v.rawType

/-- The name of the type of a value in the signature of a call. -/
def signatureType : Value → String
  | text _ => "&str | ImmutableString | String"
  | v => v.typeName

/-- The kind of a value, by which operators tell whether two values are alike. -/
def sameKind : Value → Value → Bool
  | unit, unit | bool _, bool _ | int _, int _ | float _, float _ | char _, char _
  | text _, text _ | array _, array _ | map _, map _ | blob _, blob _ | fn _ _ _ _, fn _ _ _ _
  | reply _, reply _ | instant _, instant _ | undeclared _, undeclared _
  | steps _ _ _, steps _ _ _ | floatSteps _ _ _, floatSteps _ _ _ | chars _, chars _
  | bits _, bits _ => true
  | range _ _ a, range _ _ b => a == b
  | _, _ => false

/-- Whether a value is the unit. -/
def isUnit : Value → Bool
  | unit => true
  | _ => false

/-- Whether a value is a text. -/
def isText : Value → Bool
  | text _ => true
  | _ => false

mutual

/-- The value of a literal. -/
def ofLiteral : Literal → Value
  | .unit => unit
  | .bool b => bool b
  | .int n => int n
  | .float x => float x
  | .char c => char c
  | .text s => text s
  | .array items => array (ofLiterals items).toArray
  | .map entries => map (ofLiteralEntries entries)
  | .range a b i => range a b i
  | .fn name => fn name none default []

/-- The values of literals. -/
def ofLiterals : List Literal → List Value
  | [] => []
  | l :: rest => ofLiteral l :: ofLiterals rest

/-- The entries of a literal object map, in the order of their names. -/
def ofLiteralEntries : List (String × Literal) → List (String × Value)
  | [] => []
  | (k, l) :: rest => Table.insert (ofLiteralEntries rest) k (ofLiteral l)

end

/-! ## Sizes -/

/-- How much of what is limited a value holds. -/
structure Size where
  items : Nat
  entries : Nat
  bytes : Nat
deriving Repr, DecidableEq

/-- Both sizes together. -/
def Size.add (a b : Size) : Size := ⟨a.items + b.items, a.entries + b.entries, a.bytes + b.bytes⟩

mutual

/-- The array items, map entries and bytes of text of a value, those inside included. -/
def size : Value → Size
  | text s => ⟨0, 0, s.utf8ByteSize⟩
  | blob b => ⟨b.size, 0, 0⟩
  | array ⟨items⟩ => sizeItems items
  | map entries => sizeEntries entries
  | _ => ⟨0, 0, 0⟩

/-- The size of the items of an array. -/
def sizeItems : List Value → Size
  | [] => ⟨0, 0, 0⟩
  | v :: rest => ((size v).add ⟨1, 0, 0⟩).add (sizeItems rest)

/-- The size of the entries of an object map. -/
def sizeEntries : List (String × Value) → Size
  | [] => ⟨0, 0, 0⟩
  | (_, v) :: rest => ((size v).add ⟨0, 1, 0⟩).add (sizeEntries rest)

end

/-! ## JSON -/

mutual

/-- The value of a script for a JSON value. An integer that no script integer holds never gets
here; it would be a float. -/
def ofJson : Json → Value
  | .null => unit
  | .bool b => bool b
  | .int n =>
    if Json.minInt ≤ n ∧ n ≤ Json.maxInt then int (Int64.ofInt n) else float (Float.ofInt n)
  | .float x => float x
  | .string s => text s
  | .array items => array (ofJsonItems items).toArray
  | .object members => map (ofJsonMembers members)

/-- The values of the items of an array. -/
def ofJsonItems : List Json → List Value
  | [] => []
  | v :: rest => ofJson v :: ofJsonItems rest

/-- The entries for the members of an object. -/
def ofJsonMembers : List (String × Json) → List (String × Value)
  | [] => []
  | (k, v) :: rest => (k, ofJson v) :: ofJsonMembers rest

end

/-- Why a value is not what is asked for. -/
def misfit (v : Value) (expected : String) : String :=
  let name := match v with
    | range _ _ false => "Range<i64>"
    | range _ _ true => "RangeInclusive<i64>"
    | v => v.rawType
  "Output type incorrect: " ++ name ++ " (expecting " ++ expected ++ ")"

/-- Why a value has no JSON form. -/
def noJson : Value → String
  | blob _ => "Syntax error: invalid type: byte array, expected any valid JSON value"
  | v => v.misfit "serde_json::value::Value"

/-- What an object map stands for whose first entry has the name of a piece of JSON text: what the
text spells. The other entries do not matter then. -/
def spelled? : List (String × Value) → Option (Except String Json)
  | [] => none
  | (name, v) :: _ =>
    if name == Json.rawName then
      match v with
      | text s => some ((Json.parse s).mapError fun e => "Syntax error: " ++ e.message)
      | v => some (.error (v.misfit "alloc::boxed::Box<serde_json::raw::RawValue>"))
    else none

mutual

/-- The JSON value for a value of a script, or why there is none. Floats that JSON cannot write
become `null`. -/
def toJson : Value → Except String Json
  | unit => .ok .null
  | bool b => .ok (.bool b)
  | int n => .ok (.int n.toInt)
  | float x => .ok (if x.isNaN || x.isInf then .null else .float x)
  | char c => .ok (.string c.toString)
  | text s => .ok (.string s)
  | array ⟨items⟩ => do pure (.array (← toJsonItems items))
  | map entries =>
    match spelled? entries with
    | some r => r
    | none => do pure (.object (← toJsonEntries entries))
  | v => .error v.noJson

/-- The JSON values of the items of an array. -/
def toJsonItems : List Value → Except String (List Json)
  | [] => .ok []
  | v :: rest => do
    let j ← toJson v
    pure (j :: (← toJsonItems rest))

/-- The members for the entries of an object map. -/
def toJsonEntries : List (String × Value) → Except String (List (String × Json))
  | [] => .ok []
  | (k, v) :: rest => do
    let j ← toJson v
    pure ((k, j) :: (← toJsonEntries rest))

end

end Value

end ScriptedActions.Script
