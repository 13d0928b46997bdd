import ScriptedActions.Json.Printer
import ScriptedActions.Json.Reader
import ScriptedActions.Text.Quoted

/-!
# Typed decoding

A `Decoder` says how a type is read, once for both sources: straight from a text, where a
mismatch gets the place at which it was found, and from a value that was read before, where it
has none.

A `record` is an object with known members. Members it does not know are passed over, a member
given twice is refused, and an array may stand for the object: its items are the members in the
order of the fields.
-/

set_option autoImplicit false

namespace ScriptedActions.Json

/-- How a type is read from a text and from a value. -/
structure Decoder (α : Type) where
  read : Reader α
  ofValue : Json → Except Error α

/-- What a value is, as a mismatch names it. -/
def describe : Json → String
  | null => "null"
  | bool b => "boolean `" ++ (if b then "true" else "false") ++ "`"
  | int n => "integer `" ++ toString n ++ "`"
  | float x => "floating point `" ++ floatText x ++ "`"
  | string s => "string " ++ Text.quoted s
  | array _ => "sequence"
  | object _ => "map"

/-- A value of another type than the one expected. -/
def wrongType (v : Json) (expected : String) : String :=
  "invalid type: " ++ describe v ++ ", expected " ++ expected

/-- A value of the right type that is out of range. -/
def wrongValue (v : Json) (expected : String) : String :=
  "invalid value: " ++ describe v ++ ", expected " ++ expected

/-- Too few or too many items. -/
def wrongLength (n : Nat) (expected : String) : String :=
  "invalid length " ++ toString n ++ ", expected " ++ expected

/-- The names that are accepted where another one stands. -/
def oneOf : List String → String
  | [] => "there are no variants"
  | [a] => "`" ++ a ++ "`"
  | [a, b] => "`" ++ a ++ "` or `" ++ b ++ "`"
  | names => "one of " ++ String.intercalate ", " (names.map fun n => "`" ++ n ++ "`")

namespace Decoder

variable {α β : Type}

/-- A mismatch without a place. -/
def refuse (reason : String) : Except Error α := .error (.mismatch reason)

/-- Lifts a check into a reader; the reader around it fills in the place. -/
def check (r : Except Error α) : Reader α := fun c =>
  match r with
  | .ok a => .ok a c
  | .error e => .error e c

/-- Reads a value that has the wrong type and refuses it. An array or an object is refused at
its first character, anything else behind its last one. -/
def refuseNext (expected : String) : Reader α := Reader.located do
  match ← Reader.peek with
  | some '[' => Reader.mismatch (wrongType (.array []) expected)
  | some '{' => Reader.mismatch (wrongType (.object []) expected)
  | _ => Reader.mismatch (wrongType (← Reader.value) expected)

/-- Applies a function to what is decoded. -/
def map (f : α → β) (d : Decoder α) : Decoder β where
  read := f <$> d.read
  ofValue v := f <$> d.ofValue v

/-- Checks what is decoded. -/
def refine (d : Decoder α) (f : α → Except String β) : Decoder β where
  read := do
    match f (← d.read) with
    | .ok b => pure b
    | .error reason => Reader.mismatch reason
  ofValue v := do
    match f (← d.ofValue v) with
    | .ok b => pure b
    | .error reason => refuse reason

/-- Any value. -/
def value : Decoder Json where
  read := Reader.value
  ofValue v := pure v

/-- The text of any value, as it stands in the source. -/
def raw : Decoder String where
  read := Reader.rawValue
  ofValue v := pure (render v)

/-- A string that a function accepts; `expected` says what other values should have been. -/
def textWith (expected : String) (f : String → Except String α) : Decoder α where
  read := do
    match ← Reader.peekToken with
    | none => Reader.failNext .valueEnds
    | some '"' => Reader.located do
      Reader.skip
      match f (← Reader.string) with
      | .ok a => pure a
      | .error reason => Reader.mismatch reason
    | some _ => refuseNext expected
  ofValue
    | .string s =>
      match f s with
      | .ok a => pure a
      | .error reason => refuse reason
    | v => refuse (wrongType v expected)

/-- A string. -/
def text : Decoder String := textWith "a string" .ok

/-- A truth value. -/
def bool : Decoder Bool where
  read := do
    match ← Reader.peekToken with
    | none => Reader.failNext .valueEnds
    | some 't' => Reader.skip; Reader.word ['r', 'u', 'e']; pure true
    | some 'f' => Reader.skip; Reader.word ['a', 'l', 's', 'e']; pure false
    | some _ => refuseNext "a boolean"
  ofValue
    | .bool b => pure b
    | v => refuse (wrongType v "a boolean")

/-- Checks that a number is a whole one in a range. -/
def wholeIn (low high : Int) (expected : String) : Json → Except Error Int
  | .int n => if low ≤ n ∧ n ≤ high then .ok n else refuse (wrongValue (.int n) expected)
  | v => refuse (wrongType v expected)

/-- A whole number in a range; `expected` names the range. -/
def whole (low high : Int) (expected : String) : Decoder Int where
  read := do
    match ← Reader.peekToken with
    | none => Reader.failNext .valueEnds
    | some '-' => Reader.located do
      Reader.skip
      check (wholeIn low high expected (← Reader.number false))
    | some x =>
      if Reader.isDigit x then Reader.located do
        check (wholeIn low high expected (← Reader.number true))
      else refuseNext expected
  ofValue := wholeIn low high expected

/-- A natural number below `2 ^ 64`. -/
def nat64 : Decoder Nat := (whole 0 maxNat "u64").map Int.toNat

/-- A number of things: the same range, under another name. -/
def count : Decoder Nat := (whole 0 maxNat "usize").map Int.toNat

/-- A natural number below 256. -/
def byte : Decoder Nat := (whole 0 255 "u8").map Int.toNat

/-- A signed 64-bit integer. -/
def int64 : Decoder Int := whole minInt maxInt "i64"

/-- Something, or `null` for nothing. -/
def optional (d : Decoder α) : Decoder (Option α) where
  read := do
    match ← Reader.peekToken with
    | some 'n' => Reader.skip; Reader.word ['u', 'l', 'l']; pure none
    | _ => some <$> d.read
  ofValue
    | .null => pure none
    | v => some <$> d.ofValue v

/-- One of several names. -/
def variant (cases : List (String × α)) : Decoder α where
  read := (textWith "string or map" pick).read
  ofValue
    | .string s =>
      match pick s with
      | .ok a => pure a
      | .error reason => refuse reason
    | .object [(name, v)] =>
      match pick name with
      | .error reason => refuse reason
      | .ok a =>
        match v with
        | .null => pure a
        | v => refuse (wrongType v "unit")
    | .object ms => refuse (wrongValue (.object ms) "map with a single key")
    | v => refuse (wrongType v "string or map")
where
  /-- The case of a name. -/
  pick (s : String) : Except String α :=
    match cases.find? fun c => c.1 == s with
    | some (_, a) => .ok a
    | none => .error ("unknown variant `" ++ s ++ "`, expected " ++ oneOf (cases.map Prod.fst))

/-! ## Lists and tables -/

/-- Reads the inside of an array or an object and its end. The end is looked for even when the
inside is faulty: a mismatch that has no place yet gets the one reached then. -/
def enclosed (inside : Reader α) (close : Reader Unit) : Reader α := Reader.located do
  Reader.enter
  let a ← fun c =>
    match inside c with
    | .ok a c => .ok a c
    | .error e c =>
      match close c with
      | .ok _ c => .error e c
      | .error _ c => .error e c
  close
  Reader.leave
  pure a

/-- The items of an array up to its end. -/
def itemsWith (d : Reader α) : Nat → Bool → List α → Reader (List α)
  | 0, _, _ => Reader.fail .listEnds
  | fuel + 1, first, done => do
    if ← Reader.moreItems first then
      let a ← d
      itemsWith d fuel false (a :: done)
    else pure done.reverse

/-- An array. -/
def list (d : Decoder α) : Decoder (List α) where
  read := do
    match ← Reader.peekToken with
    | none => Reader.failNext .valueEnds
    | some '[' => enclosed (do itemsWith d.read (← Reader.bound) true []) Reader.endList
    | some _ => refuseNext "a sequence"
  ofValue
    | .array items => items.mapM d.ofValue
    | v => refuse (wrongType v "a sequence")

/-- The members of an object up to its end. -/
def entriesWith (d : Reader α) : Nat → Bool → Table α → Reader (Table α)
  | 0, _, _ => Reader.fail .objectEnds
  | fuel + 1, first, done => do
    if ← Reader.moreMembers first then
      let name ← Reader.memberName
      Reader.colon
      let a ← d
      entriesWith d fuel false (done.insert name a)
    else pure done

/-- An object with members of one type; of several of one name the last one counts. -/
def table (d : Decoder α) : Decoder (Table α) where
  read := do
    match ← Reader.peekToken with
    | none => Reader.failNext .valueEnds
    | some '{' => enclosed (do entriesWith d.read (← Reader.bound) true []) Reader.endObject
    | some _ => refuseNext "a map"
  ofValue
    | .object ms => ms.mapM fun m => (fun a => (m.1, a)) <$> d.ofValue m.2
    | v => refuse (wrongType v "a map")

/-! ## Records -/

/-- A member of a record: how it is decoded and stored. -/
structure Field (α : Type) where
  name : String
  /-- Whether the member must be there. -/
  required : Bool
  decoder : Decoder (α → α)

/-- A field that must be there. -/
def Field.needed (name : String) (d : Decoder β) (store : α → β → α) : Field α :=
  ⟨name, true, d.map fun b a => store a b⟩

/-- A field that may be missing. -/
def Field.given (name : String) (d : Decoder β) (store : α → β → α) : Field α :=
  ⟨name, false, d.map fun b a => store a b⟩

/-- Refuses a record that lacks a required field. -/
def checkMissing (fields : List (Field α)) (seen : List String) : Except Error Unit :=
  match fields.find? fun f => f.required && !seen.contains f.name with
  | some f => refuse ("missing field `" ++ f.name ++ "`")
  | none => .ok ()

/-- The members of a record up to its end. -/
def membersWith (fields : List (Field α)) : Nat → Bool → List String → α → Reader α
  | 0, _, _, _ => Reader.fail .objectEnds
  | fuel + 1, first, seen, a => do
    if ← Reader.moreMembers first then
      let name ← Reader.memberName
      match fields.find? fun f => f.name == name with
      | none =>
        Reader.colon
        Reader.skipValue
        membersWith fields fuel false seen a
      | some f =>
        if seen.contains name then Reader.mismatch ("duplicate field `" ++ name ++ "`")
        else
          Reader.colon
          let store ← f.decoder.read
          membersWith fields fuel false (name :: seen) (store a)
    else
      check (checkMissing fields seen)
      pure a

/-- How many items an array that stands for a record has. -/
def lengthText (kind : String) (n : Nat) : String :=
  "struct " ++ kind ++ " with " ++ toString n ++ (if n = 1 then " element" else " elements")

/-- The items of an array that stands for a record; `n` are read. -/
def positionsWith (kind : String) (total : Nat) :
    List (Field α) → Nat → Bool → α → Reader α
  | [], _, _, a => pure a
  | f :: fields, n, more, a => do
    if ← (if more then Reader.moreItems (n = 0) else pure false) then
      let store ← f.decoder.read
      positionsWith kind total fields (n + 1) true (store a)
    else if f.required then Reader.mismatch (wrongLength n (lengthText kind total))
    else positionsWith kind total fields (n + 1) false a

/-- The members of a record from a value, in the order of their names. -/
def ofMembers (fields : List (Field α)) (ms : Table Json) (a : α) : Except Error α := do
  let a ← ms.foldlM (fun a m =>
    match fields.find? fun f => f.name == m.1 with
    | none => pure a
    | some f => (fun store => store a) <$> f.decoder.ofValue m.2) a
  checkMissing fields ms.keys
  pure a

/-- The items that stand for a record, from a value; `n` are read. -/
def ofItems (kind : String) (total : Nat) (size : Nat) :
    List (Field α) → List Json → Nat → α → Except Error α
  | [], [], _, a => .ok a
  | [], _ :: _, _, _ => refuse (wrongLength size "fewer elements in array")
  | f :: fields, [], n, a =>
    if f.required then refuse (wrongLength n (lengthText kind total))
    else ofItems kind total size fields [] (n + 1) a
  | f :: fields, v :: vs, n, a => do
    let store ← f.decoder.ofValue v
    ofItems kind total size fields vs (n + 1) (store a)

/-- A record; `start` holds the values of the fields that may be missing. -/
def record (kind : String) (start : α) (fields : List (Field α)) : Decoder α where
  read := do
    match ← Reader.peekToken with
    | none => Reader.failNext .valueEnds
    | some '{' =>
      enclosed (do membersWith fields (← Reader.bound) true [] start) Reader.endObject
    | some '[' =>
      enclosed (positionsWith kind fields.length fields 0 true start) Reader.endList
    | some _ => refuseNext ("struct " ++ kind)
  ofValue
    | .object ms => ofMembers fields ms start
    | .array items => ofItems kind fields.length items.length fields items 0 start
    | v => refuse (wrongType v ("struct " ++ kind))

/-- Decodes a whole text. -/
def parse (d : Decoder α) (text : String) : Except Error α := Reader.run d.read text

end Decoder

end ScriptedActions.Json
