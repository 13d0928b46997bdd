import ScriptedActions.Script.Library.Native
import ScriptedActions.Text.Blank
import ScriptedActions.Text.Case

/-!
# Texts

The native functions on texts. Positions count characters, and a negative position counts from
the end. Some functions change the text that they are called on and have no value of their own:
`trim`, `replace`, `pad`, `crop`, `truncate`, `make_upper` and so on.
-/

set_option autoImplicit false

namespace ScriptedActions.Script.Library

open Computed

/-- A text for the characters of a text or for a single character. -/
def textOf : Value → Option String
  | .text s => some s
  | .char c => some c.toString
  | _ => none

/-- Whether one list of characters starts with another. -/
def startsWith (s t : List Char) : Bool := t.isPrefixOf s

/-- Where a list of characters stands in another one, counted from `n`. -/
def positionOf (t : List Char) : List Char → Nat → Option Nat
  | [], n => if t.isEmpty then some n else none
  | c :: rest, n => if startsWith (c :: rest) t then some n else positionOf t rest (n + 1)

/-- The characters before and behind the first occurrence of `t`. -/
def splitAt? (t : List Char) : List Char → Option (List Char × List Char)
  | [] => none
  | c :: rest =>
    if startsWith (c :: rest) t then some ([], (c :: rest).drop t.length)
    else (splitAt? t rest).map fun (a, b) => (c :: a, b)

/-- The pieces between the occurrences of `t`, at most `n` of them. -/
def pieces (t : List Char) : Nat → List Char → List (List Char)
  | 0, _ => []
  | 1, s => [s]
  | n + 1, s =>
    match splitAt? t s with
    | some (a, b) => a :: pieces t n b
    | none => [s]

/-- The pieces of a text between the occurrences of another one. -/
def split (s t : String) (most : Nat) : List String :=
  if t.isEmpty then
    let all := "" :: (s.toList.map Char.toString ++ [""])
    if all.length ≤ most then all
    else all.take (most - 1) ++ [String.join (all.drop (most - 1))]
  else (pieces t.toList most s.toList).map String.ofList

/-- The pieces of a text, the last one first, looked for from the end. -/
def splitBack (s t : String) (most : Nat) : List String :=
  if t.isEmpty then
    let all := ("" :: (s.toList.map Char.toString ++ [""])).reverse
    if all.length ≤ most then all
    else all.take (most - 1) ++ [String.join (all.drop (most - 1)).reverse]
  else (pieces t.toList.reverse most s.toList.reverse).map fun p => String.ofList p.reverse

/-- The words of a text. -/
def words (cs : List Char) : List String :=
  let step (acc : List String × List Char) (c : Char) : List String × List Char :=
    if Text.isBlank c then
      if acc.2.isEmpty then acc else (String.ofList acc.2.reverse :: acc.1, [])
    else (acc.1, c :: acc.2)
  let (done, last) := cs.foldl step ([], [])
  (if last.isEmpty then done else String.ofList last.reverse :: done).reverse

/-- An array of texts. -/
def textArray (l : List String) : Value := .array (l.map Value.text).toArray

/-- A stretch of a text. -/
def subText (s : String) (start len : Int) : String :=
  let (first, count) := Stretch.within s.length start len
  String.ofList ((s.toList.drop first).take count)

/-- The most pieces that a number allows. -/
def most (n : Int64) : Nat := if n < 1 then 1 else n.toInt.toNat

/-- More pieces than a text has. -/
def allPieces (s : String) : Nat := s.length + 3

/-- A text made longer, up to `len` characters. -/
def padded (limits : Limits) (s : String) (len : Int) (t : String) : Except Cause String :=
  let tooLong : Except Cause String := .error (.dataTooLarge "Length of string")
  if len ≤ 0 then .ok s
  else if limits.textSize ≠ 0 && limits.textSize < len.toNat then tooLong
  else
    let n := s.length
    if len.toNat ≤ n || t.isEmpty then .ok s
    else
      let times := (len.toNat - n + t.length - 1) / t.length
      let fill := (List.replicate times t.toList).flatten.take (len.toNat - n)
      let r := s ++ String.ofList fill
      if limits.textSize ≠ 0 && limits.textSize < r.utf8ByteSize then tooLong else .ok r

/-- A character in another case, if that is one character. -/
def single (c : Char) (changed : List Char) : Value :=
  match changed with
  | [d] => .char d
  | _ => .char c

/-- Functions of a text alone. -/
def ofText (name s : String) : Option Computed :=
  match name with
  | "len" => ok (Stretch.count s.length)
  | "bytes" => ok (Stretch.count s.utf8ByteSize)
  | "is_empty" => ok (.bool s.isEmpty)
  | "to_upper" => ok (.text (Text.toUpper s))
  | "to_lower" => ok (.text (Text.toLower s))
  | "make_upper" => become (.text (Text.toUpper s))
  | "make_lower" => become (.text (Text.toLower s))
  | "trim" => become (.text (Text.trim s))
  | "clear" => become (.text "")
  | "pop" =>
    match s.toList.getLast? with
    | some c => both (.char c) (.text (String.ofList s.toList.dropLast))
    | none => both .unit (.text s)
  | "split" => ok (textArray (words s.toList))
  | "chars" => ok (.chars s.toList)
  | "to_chars" => ok (.array (s.toList.map Value.char).toArray)
  | "to_blob" => ok (.blob s.toUTF8.data)
  | _ => none

/-- Functions of a text and a number. -/
def ofTextAt (name s : String) (i : Int) : Option Computed :=
  match name with
  | "get" => ok <|
    match Part.position? s.length i with
    | some n => Part.get (.text s) (.char n)
    | none => .unit
  | "sub_string" => ok (.text (subText s i Stretch.whole))
  | "crop" => become (.text (subText s i Stretch.whole))
  | "truncate" => become (.text (String.ofList (s.toList.take i.toNat)))
  | "pop" =>
    let n := s.length - min i.toNat s.length
    both (.text (String.ofList (s.toList.drop n))) (.text (String.ofList (s.toList.take n)))
  | "chars" => ok (.chars (subText s i Stretch.whole).toList)
  | "split" =>
    let n := if i < 0 then s.length - min (-i).toNat s.length else min i.toNat s.length
    ok (textArray [String.ofList (s.toList.take n), String.ofList (s.toList.drop n)])
  | _ => none

/-- Functions of a text and a stretch of it. -/
def ofTextWithin (name s : String) (start len : Int) : Option Computed :=
  match name with
  | "sub_string" => ok (.text (subText s start len))
  | "crop" => become (.text (subText s start len))
  | "chars" => ok (.chars (subText s start len).toList)
  | _ => none

/-- Functions of a text and another one. -/
def ofTextAnd (name s t : String) : Option Computed :=
  match name with
  | "contains" => ok (.bool (positionOf t.toList s.toList 0).isSome)
  | "index_of" => ok (.int ((positionOf t.toList s.toList 0).elim (-1) Int64.ofNat))
  | "remove" => become (.text (Operator.without s t))
  | "split" => ok (textArray (split s t (allPieces s)))
  | "split_rev" => ok (textArray (splitBack s t (allPieces s)))
  | _ => none

/-- Where a search in a text starts. -/
def searchStart (n : Nat) (start : Int) : Nat :=
  if start < 0 then n - min (-start).toNat n else min start.toNat n

/-- A text in which every occurrence of `t` is replaced by `u`. -/
def replaced (s t u : String) : String :=
  if t.isEmpty then
    s.toList.foldl (fun r c => r.push c ++ u) u
  else u.intercalate ((pieces t.toList (s.length + 1) s.toList).map String.ofList)

/-- The native functions on texts and characters. -/
def texts? (limits : Limits) (render : Nat → String) (name : String) (args : List Value) :
    Option Computed :=
  match args with
  | [.text s] => ofText name s
  | [.char c] =>
    match name with
    | "to_upper" => ok (single c (Text.upperChar c))
    | "to_lower" => ok (single c (Text.lowerChar c))
    | "make_upper" => become (single c (Text.upperChar c))
    | "make_lower" => become (single c (Text.lowerChar c))
    | _ => none
  | .text s :: rest =>
    let appended : Option Computed :=
      match name, rest with
      | "append", [v] => become (.text (s ++ v.toText render))
      | _, _ => none
    let found : Option Computed :=
      match rest with
      | [.int i] => ofTextAt name s i.toInt
      | [.range a b inc] =>
        ofTextWithin name s (Stretch.ofRange a b inc).1 (Stretch.ofRange a b inc).2
      | [.int a, .int b] => ofTextWithin name s a.toInt b.toInt
      | [.int i, .char c] =>
        match name with
        | "set" => become <|
          match Part.position? s.length i.toInt with
          | some n => .text (String.ofList (s.toList.set n c))
          | none => .text s
        | "pad" => some (.update ((padded limits s i.toInt c.toString).map fun r => (.unit, .text r)))
        | _ => none
      | [.int i, .text t] =>
        if name == "pad" then
          some (.update ((padded limits s i.toInt t).map fun r => (.unit, .text r)))
        else none
      | [.text t] =>
        match name with
        | "starts_with" => ok (.bool (startsWith s.toList t.toList))
        | "ends_with" => ok (.bool (startsWith s.toList.reverse t.toList.reverse))
        | _ => ofTextAnd name s t
      | [v] => (textOf v).bind fun t => ofTextAnd name s t
      | [v, .int i] => (textOf v).bind fun t =>
        match name with
        | "index_of" =>
          let n := searchStart s.length i.toInt
          ok (.int ((positionOf t.toList (s.toList.drop n) n).elim (-1) Int64.ofNat))
        | "split" => ok (textArray (split s t (most i)))
        | "split_rev" => ok (textArray (splitBack s t (most i)))
        | _ => none
      | [v, w] => do
        let t ← textOf v
        let u ← textOf w
        match name with
        | "replace" => become (.text (replaced s t u))
        | _ => none
      | _ => none
    appended.orElse fun _ => found
  | _ => none

end ScriptedActions.Script.Library
