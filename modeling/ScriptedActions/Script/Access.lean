import ScriptedActions.Script.Fault

/-!
# Parts of values

What an index leads to: an item of an array, an entry of an object map, a byte of a blob, a
character of a text, a bit of an integer. A negative index counts from the end. `find?` says
which part of a value an index means, `get` reads the part and `put` replaces it.
-/

set_option autoImplicit false

namespace ScriptedActions.Script

/-- A part of a value. -/
inductive Part where
  | item (i : Nat)
  | entry (name : String)
  /-- An entry that the object map does not have. -/
  | absent
  | byte (i : Nat)
  | char (i : Nat)
  /-- The characters of a text from `first` up to `last`, which is not one of them. -/
  | slice (first last : Nat)
  | bit (i : Nat)
  /-- `count` bits of an integer from `first` on. -/
  | bitField (first count : Nat)

namespace Part

/-- The index that a number means among `n` things. -/
def position? (n : Nat) (i : Int) : Option Nat :=
  if 0 ≤ i then if i < n then some i.toNat else none
  else if -i ≤ n then some (n - (-i).toNat) else none

/-- The index that a number means, if it does not count from the end. -/
def forward? (n : Nat) (i : Int) : Option Nat :=
  if 0 ≤ i ∧ i < n then some i.toNat else none

/-- What an index leads to in a value; `none` if such values have no parts of their own. With
`create` an object map gets the entry if it is absent. -/
def find? (v index : Value) (create : Bool) : Option (Except Cause Part) :=
  match v with
  | .array items => some <| withInt fun i =>
    match position? items.size i with
    | some n => .ok (.item n)
    | none => .error (.arrayBounds items.size i)
  | .blob bytes => some <| withInt fun i =>
    match position? bytes.size i with
    | some n => .ok (.byte n)
    | none => .error (.arrayBounds bytes.size i)
  | .map entries => some <|
    match index with
    | .text k => .ok (if create || Table.contains entries k then .entry k else .absent)
    | other => .error (.wrongType other.rawType "string")
  | .int _ => some <|
    match index with
    | .range a b inclusive =>
      match forward? 64 a.toInt, forward? 64 b.toInt with
      | none, _ => .error (.bitBounds a.toInt)
      | _, none => .error (.bitBounds b.toInt)
      | some i, some j =>
        let last := if inclusive then j + 1 else j
        .ok (.bitField i (last - i))
    | _ => withInt fun i =>
      match position? 64 i with
      | some n => .ok (.bit n)
      | none => .error (.bitBounds i)
  | .text s => some <|
    match index with
    | .range a b inclusive =>
      match forward? s.length a.toInt with
      | none => .error (.textBounds s.length a.toInt)
      | some i =>
        let last := (forward? s.length b.toInt).getD 0
        .ok (.slice i (max i (if inclusive then last + 1 else last)))
    | _ => withInt fun i =>
      match position? s.length i with
      | some n => .ok (.char n)
      | none => .error (.textBounds s.length i)
  | _ => none
where
  /-- What a whole number as an index leads to. -/
  withInt (f : Int → Except Cause Part) : Except Cause Part :=
    match index with
    | .int i => f i.toInt
    | other => .error (.wrongType other.rawType "i64")

/-- The bits of a bit field, in place. -/
def mask (first count : Nat) : UInt64 :=
  UInt64.ofNat (((1 <<< count) - 1) <<< first)

/-- A part of a value. -/
def get (v : Value) (p : Part) : Value :=
  match p, v with
  | item i, .array items => items[i]?.getD .unit
  | entry k, .map entries => (Table.get? entries k).getD .unit
  | byte i, .blob bytes => .int (Int64.ofNat ((bytes[i]?.getD 0).toNat))
  | char i, .text s => .char ((s.toList[i]?).getD ' ')
  | slice a b, .text s => .text (String.ofList ((s.toList.drop a).take (b - a)))
  | bit i, .int n => .bool (n.toUInt64.toNat.testBit i)
  | bitField a c, .int n => .int ((n.toUInt64 &&& mask a c) >>> UInt64.ofNat a).toInt64
  | _, _ => .unit

/-- The value with a part replaced. -/
def put (v : Value) (p : Part) (w : Value) : Except Cause Value :=
  match p, v with
  | item i, .array items => .ok (.array (items.set! i w))
  | entry k, .map entries => .ok (.map (Table.insert entries k w))
  | byte i, .blob bytes =>
    match w with
    | .int n => .ok (.blob (bytes.set! i (UInt8.ofInt n.toInt)))
    | other => .error (.wrongType other.rawType "i64")
  | char i, .text s =>
    match w with
    | .char c => .ok (.text (String.ofList (s.toList.set i c)))
    | other => .error (.wrongType other.rawType "char")
  | slice a b, .text s =>
    match w with
    | .text t => .ok (.text (String.ofList (s.toList.take a ++ t.toList ++ s.toList.drop b)))
    | other => .error (.wrongType other.rawType "string")
  | bit i, .int n =>
    match w with
    | .bool b =>
      let m := mask i 1
      .ok (.int (if b then n.toUInt64 ||| m else n.toUInt64 &&& ~~~m).toInt64)
    | other => .error (.wrongType other.rawType "bool")
  | bitField a c, .int n =>
    match w with
    | .int x =>
      let m := mask a c
      .ok (.int ((n.toUInt64 &&& ~~~m) ||| ((x.toUInt64 <<< UInt64.ofNat a) &&& m)).toInt64)
    | other => .error (.wrongType other.rawType "i64")
  | _, _ => .ok v

/-- Whether the part is a value by itself, so that it changes along with what it is part of. -/
def isItself : Part → Bool
  | item _ | entry _ => true
  | _ => false

end Part

end ScriptedActions.Script
