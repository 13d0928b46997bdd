import ScriptedActions.Json.Decoder
import ScriptedActions.Protocol.Date
import ScriptedActions.Text.Blank

/-!
# Points in time

A point in time of the universal clock, to the nanosecond. In a leap second the nanoseconds go
on beyond those of the second before it.

On the wire it is a text such as `2024-05-01T10:00:00.250Z`. Reading is lenient about blanks, the
letter between date and time and the sign of a year; an offset from universal time is taken off.
Writing gives no more digits than the fraction needs, in groups of three.
-/

set_option autoImplicit false

namespace ScriptedActions

/-- A point in time: a day, a second of it and a nanosecond of that. -/
structure Timestamp where
  date : Date
  second : Nat
  nano : Nat
deriving DecidableEq, Repr, Inhabited

namespace Timestamp

/-- Why a text is no point in time. -/
inductive Fault where
  | outOfRange
  /-- The offset leads beyond the first or the last day. -/
  | impossible
  | invalid
  | tooShort
  | tooLong
deriving DecidableEq, Repr

/-- The wording of a fault. -/
def Fault.message : Fault → String
  | outOfRange => "input is out of range"
  | impossible => "no possible date and time matching input"
  | invalid => "input contains invalid characters"
  | tooShort => "premature end of input"
  | tooLong => "trailing input"

/-! ## Reading

Each function reads a part at the begin of a text and gives its meaning and what is left. -/

/-- A text without the blanks at its begin. -/
def unindented (cs : List Char) : List Char := cs.dropWhile Text.isBlank

/-- The value of a digit. -/
def digit? (c : Char) : Option Nat := if c.isDigit then some (c.toNat - 48) else none

/-- The greatest number that is read. -/
def maxNumber : Nat := 0x7fffffffffffffff

/-- Further digits of a number, at most as many as the fuel. -/
def moreDigits : Nat → Nat → List Char → Except Fault (Nat × List Char)
  | 0, n, cs => .ok (n, cs)
  | _, n, [] => .ok (n, [])
  | fuel + 1, n, c :: cs =>
    match digit? c with
    | none => .ok (n, c :: cs)
    | some d =>
      if maxNumber < n * 10 + d then .error .outOfRange else moreDigits fuel (n * 10 + d) cs

/-- A number of at least one digit and at most `width`. -/
def number (width : Nat) : List Char → Except Fault (Nat × List Char)
  | [] => .error .tooShort
  | c :: cs => if (digit? c).isNone then .error .invalid else moreDigits width 0 (c :: cs)

/-- A number in a range, behind blanks. -/
def numberIn (width low high : Nat) (cs : List Char) : Except Fault (Nat × List Char) := do
  let (n, cs) ← number width (unindented cs)
  if low ≤ n ∧ n ≤ high then .ok (n, cs) else .error .outOfRange

/-- A year: of four digits at most unless it has a sign. -/
def signedYear : List Char → Except Fault (Int × List Char)
  | '-' :: cs => do
    let (n, cs) ← number cs.length cs
    pure (-(n : Int), cs)
  | '+' :: cs => do
    let (n, cs) ← number cs.length cs
    pure ((n : Int), cs)
  | cs => do
    let (n, cs) ← number 4 cs
    pure ((n : Int), cs)

/-- A year in the range of the years that are read, behind blanks. -/
def year (cs : List Char) : Except Fault (Int × List Char) := do
  let (y, cs) ← signedYear (unindented cs)
  if -0x80000000 ≤ y ∧ y < 0x80000000 then .ok (y, cs) else .error .outOfRange

/-- A mark, behind blanks. -/
def mark (m : Char) (cs : List Char) : Except Fault (List Char) :=
  match unindented cs with
  | [] => .error .tooShort
  | c :: cs => if c = m then .ok cs else .error .invalid

/-- The nanoseconds of a fraction: of nine digits, any more are passed over. -/
def fraction (cs : List Char) : Except Fault (Nat × List Char) := do
  let (n, rest) ← number 9 cs
  let read := cs.length - rest.length
  .ok (n * Nat.pow 10 (9 - read), rest.dropWhile Char.isDigit)

/-- The nanoseconds of a second that may have a fraction. -/
def subsecond : List Char → Except Fault (Nat × List Char)
  | '.' :: cs => fraction cs
  | cs => .ok (0, cs)

/-- The letter between a date and a time. -/
def separator : List Char → Except Fault (List Char)
  | 't' :: cs | 'T' :: cs | ' ' :: cs => .ok cs
  | [] => .error .tooShort
  | _ => .error .invalid

/-- Two digits and no fewer bytes than two. -/
def twoDigits : List Char → Except Fault ((Nat × Nat) × List Char)
  | [] => .error .tooShort
  | [a] => if a.utf8Size < 2 then .error .tooShort else .error .invalid
  | a :: b :: cs =>
    match digit? a, digit? b with
    | some x, some y => .ok ((x, y), cs)
    | _, _ => .error .invalid

/-- The seconds of an offset from universal time. -/
def offset (cs : List Char) : Except Fault (Int × List Char) := do
  match cs with
  | 'Z' :: rest | 'z' :: rest => .ok (0, rest)
  | [] => .error .tooShort
  | c :: rest =>
    if c = '+' ∨ c = '-' ∨ c = '−' then
      let ((h, i), rest) ← twoDigits rest
      let ((m, n), rest) ← twoDigits (rest.dropWhile fun x => x = ':' || Text.isBlank x)
      if 5 < m then .error .outOfRange
      else
        let seconds : Int := (h * 10 + i) * 3600 + (m * 10 + n) * 60
        .ok (if c = '+' then seconds else -seconds, rest)
    else .error .invalid

/-- The offset of a text that may also name universal time. -/
def zone (cs : List Char) : Except Fault (Int × List Char) :=
  match cs with
  | a :: b :: c :: rest =>
    if a.toUpper = 'U' ∧ b.toUpper = 'T' ∧ c.toUpper = 'C' then .ok (0, rest) else offset cs
  | cs => offset cs

/-- The number of seconds of a day. -/
def daySeconds : Nat := 86400

/-- Takes an offset off a local time. -/
def shifted (date : Date) (second nano : Nat) (offset : Int) : Except Fault Timestamp :=
  let s := (second : Int) - offset
  let found := if s < 0 then date.previous?
    else if s < daySeconds then some date
    else date.next?
  match found with
  | some d => .ok ⟨d, (s % daySeconds).toNat, nano⟩
  | none => .error .impossible

/-- The point in time of a local date and time. -/
def ofLocal (y : Int) (m d second nano : Nat) (offset : Int) : Except Fault Timestamp :=
  match Date.of? y m d with
  | none => .error .outOfRange
  | some date =>
    if offset ≤ -(daySeconds : Int) ∨ (daySeconds : Int) ≤ offset then .error .outOfRange
    else shifted date second nano offset

/-- Reads a point in time. -/
def parse (text : String) : Except Fault Timestamp := do
  let (y, cs) ← year text.toList
  let (m, cs) ← numberIn 2 1 12 (← mark '-' cs)
  let (d, cs) ← numberIn 2 1 31 (← mark '-' cs)
  let (hour, cs) ← numberIn 2 0 23 (← separator cs)
  let (minute, cs) ← numberIn 2 0 59 (← mark ':' cs)
  let (second, cs) ← numberIn 2 0 60 (← mark ':' cs)
  let (nano, cs) ← subsecond cs
  let (o, cs) ← zone (unindented cs)
  if unindented cs ≠ [] then .error .tooLong
  else if second = 60 then
    -- a leap second is the second before it, and its nanoseconds go on
    ofLocal y m d (hour * 3600 + minute * 60 + 59) (nano + 1000000000) o
  else ofLocal y m d (hour * 3600 + minute * 60 + second) nano o

/-! ## Writing -/

/-- A number with zeros in front up to a width. -/
def padded (width n : Nat) : String :=
  let digits := toString n
  String.ofList (List.replicate (width - digits.length) '0') ++ digits

/-- A year: with a sign unless it has four digits. -/
def yearText (y : Int) : String :=
  if 0 ≤ y ∧ y ≤ 9999 then padded 4 y.toNat
  else (if y < 0 then "-" else "+") ++ padded 4 y.natAbs

/-- A fraction of a second. -/
def fractionText (nano : Nat) : String :=
  if nano = 0 then ""
  else if nano % 1000000 = 0 then "." ++ padded 3 (nano / 1000000)
  else if nano % 1000 = 0 then "." ++ padded 6 (nano / 1000)
  else "." ++ padded 9 nano

/-- Writes a point in time. -/
def render (t : Timestamp) : String :=
  let leap := 1000000000 ≤ t.nano
  let second := t.second % 60 + if leap then 1 else 0
  yearText t.date.year ++ "-" ++ padded 2 t.date.month ++ "-" ++ padded 2 t.date.day ++ "T" ++
    padded 2 (t.second / 3600) ++ ":" ++ padded 2 (t.second / 60 % 60) ++ ":" ++
    padded 2 second ++ fractionText (if leap then t.nano - 1000000000 else t.nano) ++ "Z"

/-- Reads a point in time from JSON. -/
def decoder : Json.Decoder Timestamp :=
  Json.Decoder.textWith "an RFC 3339 formatted date and time string" fun s =>
    (parse s).mapError Fault.message

end Timestamp

end ScriptedActions
