import ScriptedActions.Script.Library.Native
import ScriptedActions.Text.Utf8

/-!
# Arrays, object maps and blobs

The native functions on containers that call no function of the script. An index counts from the
end if it is negative; one that leads nowhere finds the unit and changes nothing.
-/

set_option autoImplicit false

namespace ScriptedActions.Script.Library

open Computed

variable {α : Type}

/-- Where an item goes that is inserted into `n` items. -/
def insertionPoint (n : Nat) (i : Int) : Nat :=
  if i < 0 then n - min (-i).toNat n else min i.toNat n

/-- Items with another one among them. -/
def inserted (items : Array α) (i : Int) (x : α) : Array α :=
  let n := insertionPoint items.size i
  (items.toList.take n ++ x :: items.toList.drop n).toArray

/-- Items with a stretch of them replaced. -/
def spliced (items : Array α) (start len : Int) (replacement : Array α) : Array α :=
  let (first, count) := Stretch.within items.size start len
  (items.toList.take first ++ replacement.toList ++ items.toList.drop (first + count)).toArray

/-- A stretch of items. -/
def stretch (items : Array α) (start len : Int) : Array α :=
  let (first, count) := Stretch.within items.size start len
  ((items.toList.drop first).take count).toArray

/-- Items without a stretch of them. -/
def withoutStretch (items : Array α) (start len : Int) : Array α := spliced items start len #[]

/-- Items without the one at an index. -/
def withoutItem (items : Array α) (i : Int) : Option (α × Array α) := do
  let n ← Part.position? items.size i
  let x ← items[n]?
  pure (x, (items.toList.eraseIdx n).toArray)

/-- The functions that arrays and blobs have in common; `wrap` makes the container a value and
`item` an item of it. -/
def ofSequence (wrap : Array α → Value) (item : α → Value) (absent : Value) (name : String)
    (items : Array α) (args : List Value) : Option Computed :=
  match args with
  | [] =>
    match name with
    | "len" => seen (Stretch.count items.size)
    | "is_empty" => seen (.bool items.isEmpty)
    | "clear" => become (wrap #[])
    | "reverse" => become (wrap items.reverse)
    | "pop" => both (items.back?.elim absent item) (wrap items.pop)
    | "shift" => both (items[0]?.elim absent item) (wrap (items.toList.drop 1).toArray)
    | _ => none
  | [.int i] =>
    match name with
    | "get" => seen <|
      match Part.position? items.size i.toInt with
      | some n => items[n]?.elim absent item
      | none => absent
    | "remove" =>
      match withoutItem items i.toInt with
      | some (x, rest) => both (item x) (wrap rest)
      | none => both absent (wrap items)
    | "truncate" => become (wrap (items.toList.take i.toInt.toNat).toArray)
    | "chop" => become (wrap (items.toList.drop (items.size - i.toInt.toNat)).toArray)
    | "extract" => seen (wrap (stretch items i.toInt Stretch.whole))
    | "split" =>
      let n := insertionPoint items.size i.toInt
      both (wrap (items.toList.drop n).toArray) (wrap (items.toList.take n).toArray)
    | _ => none
  | [.range a b inc] =>
    let (start, len) := Stretch.ofRange a b inc
    match name with
    | "extract" => seen (wrap (stretch items start len))
    | "drain" => both (wrap (stretch items start len)) (wrap (withoutStretch items start len))
    | "retain" =>
      both (wrap (withoutStretch items start len)) (wrap (stretch items start len))
    | _ => none
  | [.int a, .int b] =>
    let start := a.toInt
    let len := b.toInt
    match name with
    | "extract" => seen (wrap (stretch items start len))
    | "drain" => both (wrap (stretch items start len)) (wrap (withoutStretch items start len))
    | "retain" =>
      both (wrap (withoutStretch items start len)) (wrap (stretch items start len))
    | _ => none
  | _ => none

/-- Whether a value is equal to an item of an array; values of different kinds are not. -/
def isItem (v : Value) : List Value → Except Cause Bool
  | [] => .ok false
  | w :: rest => do if ← Operator.equal w v then pure true else isItem v rest

/-- Where the first item equal to a value stands. -/
def itemIndex (v : Value) (n : Nat) : List Value → Except Cause Value
  | [] => .ok (.int (-1))
  | w :: rest => do
    if ← Operator.equal w v then pure (Stretch.count n) else itemIndex v (n + 1) rest

/-- Items of one kind in their order, if they have one. -/
def sorted (items : Array Value) : Except Cause (Array Value) :=
  match items[0]? with
  | none => .ok items
  | some first =>
    if items.size ≤ 1 then .ok items
    else if items.any fun v => !first.sameKind v then
      .error (.functionNotFound "sort() cannot be called with elements of different types")
    else
      let le (a b : Value) : Bool :=
        match a, b with
        | .int x, .int y => decide (x ≤ y)
        | .float x, .float y => !(y < x)
        | .text x, .text y => !(decide (y < x))
        | .char x, .char y => decide (x ≤ y)
        | .bool x, .bool y => !x || y
        | _, _ => true
      .ok (items.toList.mergeSort le).toArray

/-- Items without those that equal the one before them. -/
def deduplicated : List Value → Except Cause (List Value)
  | [] => .ok []
  | v :: rest => do
    match ← deduplicated rest with
    | [] => pure [v]
    | w :: others => pure (if ← Operator.equal v w then v :: others else v :: w :: others)

/-- Items made more, up to a number. -/
def paddedItems (limits : Limits) (items : Array Value) (len : Int) (v : Value) :
    Except Cause (Array Value) :=
  if len ≤ 0 then .ok items
  else if limits.arraySize ≠ 0 && limits.arraySize < len.toNat then
    .error (.dataTooLarge "Size of array")
  else
    let times := len.toNat - items.size
    let now := (Value.array items).size
    let each := v.size.add ⟨1, 0, 0⟩
    let grown : Value.Size :=
      ⟨now.items + times * each.items, now.entries + times * each.entries,
        now.bytes + times * each.bytes⟩
    match Eval.oversize limits grown with
    | some kind => if times = 0 then .ok items else .error (.dataTooLarge kind)
    | none => .ok (items ++ Array.replicate times v)

/-- The native functions on arrays. -/
def ofArray (limits : Limits) (name : String) (items : Array Value) (args : List Value) :
    Option Computed :=
  match name, args with
  | "push", [v] => become (.array (items.push v))
  | "append", [.array more] => become (.array (items ++ more))
  | "insert", [.int i, v] => become (.array (inserted items i.toInt v))
  | "set", [.int i, v] => become <|
    match Part.position? items.size i.toInt with
    | some n => .array (items.set! n v)
    | none => .array items
  | "pad", [.int n, v] =>
    some (.update ((paddedItems limits items n.toInt v).map fun r => (.unit, .array r)))
  | "splice", [.range a b inc, .array r] =>
    become (.array (spliced items (Stretch.ofRange a b inc).1 (Stretch.ofRange a b inc).2 r))
  | "splice", [.int a, .int b, .array r] => become (.array (spliced items a.toInt b.toInt r))
  | "sort", [] => some (.update ((sorted items).map fun r => (.unit, .array r)))
  | "dedup", [] =>
    some (.update ((deduplicated items.toList).map fun r => (.unit, .array r.toArray)))
  | "contains", [v] => some (.view ((isItem v items.toList).map .bool))
  | "index_of", [v] =>
    match v with
    | .fn _ _ _ _ => none
    | v => some (.view (itemIndex v 0 items.toList))
  | "index_of", [v, .int start] =>
    match v with
    | .fn _ _ _ _ => none
    | v =>
      let n := insertionPoint items.size start.toInt
      some (.view (itemIndex v n (items.toList.drop n)))
  | _, _ => ofSequence Value.array id .unit name items args

/-- A byte of a blob as a number. -/
def byteValue (b : UInt8) : Value := .int (Int64.ofNat b.toNat)

/-- The integer whose bytes are given, the lowest first. -/
def integerOf (bytes : List UInt8) : Value :=
  .int (UInt64.ofNat (bytes.foldr (fun b n => n * 256 + b.toNat) 0)).toInt64

/-- The bytes of an integer, the lowest first. -/
def bytesOf (n : Int64) : List UInt8 :=
  (List.range 8).map fun i => UInt8.ofNat (n.toUInt64.toNat >>> (8 * i))

/-- A stretch of a blob overwritten. -/
def overwritten (bytes : Array UInt8) (start len : Int) (new : List UInt8) : Value :=
  let (first, count) := Stretch.within bytes.size start len
  let part := new.take count
  .blob (bytes.toList.take first ++ part ++ bytes.toList.drop (first + part.length)).toArray

/-- The text of bytes; what is no text is replaced. -/
def textOfBytes (bytes : List UInt8) : Value := .text (Text.Utf8.decodeLossy bytes)

/-- The native functions that read the bytes of a blob or write over them. -/
def ofBytes (name : String) (bytes : Array UInt8) (args : List Value) : Option Computed :=
  match name, args with
  | "contains", [.int n] => seen (.bool (bytes.contains (UInt8.ofInt n.toInt)))
  | "to_array", [] => seen (.array (bytes.map byteValue))
  | "as_string", [] => seen (textOfBytes bytes.toList)
  | "parse_le_int", [.range a b inc] =>
    seen (integerOf ((stretch bytes (Stretch.ofRange a b inc).1
      (Stretch.ofRange a b inc).2).toList.take 8))
  | "parse_le_int", [.int a, .int b] =>
    seen (integerOf ((stretch bytes a.toInt b.toInt).toList.take 8))
  | "parse_be_int", [.range a b inc] =>
    let part := (stretch bytes (Stretch.ofRange a b inc).1 (Stretch.ofRange a b inc).2).toList.take 8
    seen (integerOf (part ++ List.replicate (8 - part.length) 0).reverse)
  | "parse_be_int", [.int a, .int b] =>
    let part := (stretch bytes a.toInt b.toInt).toList.take 8
    seen (integerOf (part ++ List.replicate (8 - part.length) 0).reverse)
  | "write_le", [.int a, .int b, .int v] => become (overwritten bytes a.toInt b.toInt (bytesOf v))
  | "write_be", [.int a, .int b, .int v] =>
    become (overwritten bytes a.toInt b.toInt (bytesOf v).reverse)
  | "write_le", [.range a b inc, .int v] =>
    become (overwritten bytes (Stretch.ofRange a b inc).1 (Stretch.ofRange a b inc).2 (bytesOf v))
  | "write_be", [.range a b inc, .int v] =>
    become (overwritten bytes (Stretch.ofRange a b inc).1 (Stretch.ofRange a b inc).2
      (bytesOf v).reverse)
  | "write_utf8", [.int a, .int b, .text s] =>
    become (overwritten bytes a.toInt b.toInt s.toUTF8.data.toList)
  | "write_utf8", [.range a b inc, .text s] =>
    become (overwritten bytes (Stretch.ofRange a b inc).1 (Stretch.ofRange a b inc).2
      s.toUTF8.data.toList)
  | "write_ascii", [.int a, .int b, .text s] =>
    become (overwritten bytes a.toInt b.toInt (s.toUTF8.data.toList.filter (· < 128)))
  | "write_ascii", [.range a b inc, .text s] =>
    become (overwritten bytes (Stretch.ofRange a b inc).1 (Stretch.ofRange a b inc).2
      (s.toUTF8.data.toList.filter (· < 128)))
  | "as_string", [.int a, .int b] => seen (textOfBytes (stretch bytes a.toInt b.toInt).toList)
  | "as_string", [.int a] => seen (textOfBytes (stretch bytes a.toInt Stretch.whole).toList)
  | "as_string", [.range a b inc] =>
    seen (textOfBytes (stretch bytes (Stretch.ofRange a b inc).1 (Stretch.ofRange a b inc).2).toList)
  | _, _ => ofSequence Value.blob byteValue (.int 0) name bytes args

/-- The native functions on blobs. -/
def ofBlob (limits : Limits) (name : String) (bytes : Array UInt8) (args : List Value) :
    Option Computed :=
  match name, args with
  | "push", [.int n] => become (.blob (bytes.push (UInt8.ofInt n.toInt)))
  | "append", [.blob more] => become (.blob (bytes ++ more))
  | "append", [.int n] => become (.blob (bytes.push (UInt8.ofInt n.toInt)))
  | "append", [.text s] => become (.blob (bytes ++ s.toUTF8.data))
  | "append", [.char c] => become (.blob (bytes ++ c.toString.toUTF8.data))
  | "insert", [.int i, .int n] => become (.blob (inserted bytes i.toInt (UInt8.ofInt n.toInt)))
  | "set", [.int i, .int n] => become <|
    match Part.position? bytes.size i.toInt with
    | some k => .blob (bytes.set! k (UInt8.ofInt n.toInt))
    | none => .blob bytes
  | "pad", [.int n, .int b] => some <| .update <|
    if limits.arraySize ≠ 0 && limits.arraySize < n.toInt.toNat then
      .error (.dataTooLarge "Size of BLOB")
    else .ok (.unit, .blob (bytes ++
      Array.replicate (n.toInt.toNat - bytes.size) (UInt8.ofInt b.toInt)))
  | "splice", [.range a b inc, .blob r] =>
    become (.blob (spliced bytes (Stretch.ofRange a b inc).1 (Stretch.ofRange a b inc).2 r))
  | "splice", [.int a, .int b, .blob r] => become (.blob (spliced bytes a.toInt b.toInt r))
  | _, _ => ofBytes name bytes args

mutual

/-- A value inside JSON text, as a script writes it. -/
def jsonText : Value → String
  | .unit => "null"
  | .map entries => "\x7b" ++ jsonEntries entries ++ "\x7d"
  | v => v.debug

/-- The entries of an object map as JSON text. -/
def jsonEntries : List (String × Value) → String
  | [] => ""
  | [(k, v)] => Text.quoted k ++ ":" ++ jsonText v
  | (k, v) :: rest => Text.quoted k ++ ":" ++ jsonText v ++ "," ++ jsonEntries rest

end

/-- The native functions on object maps. -/
def ofMap (name : String) (entries : List (String × Value)) (args : List Value) :
    Option Computed :=
  match name, args with
  | "len", [] => seen (Stretch.count entries.length)
  | "is_empty", [] => seen (.bool entries.isEmpty)
  | "clear", [] => become (.map [])
  | "keys", [] => seen (.array ((Table.keys entries).map Value.text).toArray)
  | "values", [] => seen (.array (Table.values entries).toArray)
  | "to_json", [] => seen (.text (jsonText (.map entries)))
  | "contains", [.text k] => seen (.bool (Table.contains entries k))
  | "get", [.text k] => seen ((Table.get? entries k).getD .unit)
  | "set", [.text k, v] => become (.map (Table.insert entries k v))
  | "remove", [.text k] =>
    both ((Table.get? entries k).getD .unit) (.map (Table.erase entries k))
  | "mixin", [.map more] => become (.map (Operator.merged entries more))
  | "fill_with", [.map more] => become (.map (Operator.merged more entries))
  | _, _ => none

/-- A new blob of some bytes. -/
def newBlob (limits : Limits) (len : Int) (b : UInt8) : Computed :=
  .value <|
    if limits.arraySize ≠ 0 && limits.arraySize < len.toNat then
      .error (.dataTooLarge "Size of BLOB")
    else .ok (.blob (Array.replicate len.toNat b))

/-- The native functions on containers that call no function of the script. -/
def containers? (limits : Limits) (name : String) (args : List Value) : Option Computed :=
  match args with
  | .array items :: rest => ofArray limits name items rest
  | .map entries :: rest => ofMap name entries rest
  | .blob bytes :: rest => ofBlob limits name bytes rest
  | [] => if name == "blob" then ok (.blob #[]) else none
  | [.int n] => if name == "blob" then some (newBlob limits n.toInt 0) else none
  | [.int n, .int b] =>
    if name == "blob" then some (newBlob limits n.toInt (UInt8.ofInt b.toInt)) else none
  | _ => none

end ScriptedActions.Script.Library
