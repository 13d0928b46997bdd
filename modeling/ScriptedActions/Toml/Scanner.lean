import ScriptedActions.Decimal.Reading

/-!
# Scanning TOML

Readers for the small parts of a document: blanks, comments, keys, texts, numbers and dates. A
reader fails softly where something else may still be read, and hard where the document is
wrong; the place at which it then stands is where the fault is.
-/

set_option autoImplicit false

namespace ScriptedActions.Toml

/-- A place in a document: what is left of it, and how many characters stand in front. -/
structure Cursor where
  rest : List Char
  offset : Nat
deriving Inhabited

/-- How a reader fails. -/
inductive Failure where
  | soft
  | hard
deriving DecidableEq, Repr, Inhabited

/-- A reader of a part of a document. -/
abbrev Scan := EStateM Failure Cursor

namespace Scan

variable {α β : Type}

/-- Fails softly. -/
def fail : Scan α := fun c => .error .soft c

/-- Fails hard. -/
def wrong : Scan α := fun c => .error .hard c

/-- Fails hard where a reader fails. -/
def must (r : Scan α) : Scan α := fun c =>
  match r c with
  | .ok a c => .ok a c
  | .error _ c => .error .hard c

/-- What a reader reads, or nothing if it fails softly. -/
def attempt (r : Scan α) : Scan (Option α) := fun c =>
  match r c with
  | .ok a c => .ok (some a) c
  | .error .soft _ => .ok none c
  | .error .hard c => .error .hard c

/-- What a reader reads, or what another one reads in its place if it fails softly. -/
def orElse (r s : Scan α) : Scan α := fun c =>
  match r c with
  | .error .soft _ => s c
  | result => result

/-- A reader that stands where it began if it fails. -/
def fromStart (r : Scan α) : Scan α := fun c =>
  match r c with
  | .ok a d => .ok a d
  | .error e _ => .error e c

/-- The next character, which stays. -/
def peek : Scan (Option Char) := fun c => .ok c.rest.head? c

/-- What is left. -/
def ahead : Scan (List Char) := fun c => .ok c.rest c

/-- Where the reader stands. -/
def offset : Scan Nat := fun c => .ok c.offset c

/-- Passes over a number of characters. -/
def skip (n : Nat) : Scan Unit := fun c => .ok () ⟨c.rest.drop n, c.offset + n⟩

/-- A character of a kind. -/
def char (p : Char → Bool) : Scan Char := do
  match ← peek with
  | some x =>
    if p x then
      skip 1
      pure x
    else fail
  | none => fail

/-- A given text. -/
def word (w : String) : Scan Unit := do
  if w.toList.isPrefixOf (← ahead) then skip w.length else fail

/-- Characters of a kind, as many as there are. -/
def run (p : Char → Bool) : Scan (List Char) := do
  let cs := (← ahead).takeWhile p
  skip cs.length
  pure cs

/-- Characters of a kind, at least one. -/
def run1 (p : Char → Bool) : Scan (List Char) := do
  let cs ← run p
  if cs.isEmpty then fail else pure cs

/-- What a reader reads, over and over, up to its soft failure. -/
def many (r : Scan α) : Scan (List α) := do go ((← ahead).length + 1) []
where
  /-- As many rounds as the fuel allows. -/
  go : Nat → List α → Scan (List α)
    | 0, done => pure done.reverse
    | n + 1, done => do
      match ← attempt r with
      | some a => go n (a :: done)
      | none => pure done.reverse

/-- What a reader reads, with a mark between its pieces; a mark behind the last piece stays. -/
def separated (r : Scan α) (mark : Char) : Scan (List α) := do
  match ← attempt r with
  | none => pure []
  | some a => do
    let more ← many do
      let _ ← char (· == mark)
      r
    pure (a :: more)

/-- The same for one piece at least. -/
def separated1 (r : Scan α) (mark : Char) : Scan (List α) := do
  let a ← r
  let more ← many do
    let _ ← char (· == mark)
    r
  pure (a :: more)

/-! ## Blanks and comments -/

/-- Whether a character is a blank. -/
def isBlank (c : Char) : Bool := c == ' ' || c == '\t'

/-- Whether a character can stand in a comment. -/
def isInLine (c : Char) : Bool := c == '\t' || (' ' ≤ c && c != '\x7f')

/-- Blanks. -/
def blanks : Scan Unit := do
  let _ ← run isBlank
  pure ()

/-- The end of a line. -/
def newline : Scan Unit := do
  match ← ahead with
  | '\n' :: _ => skip 1
  | '\r' :: '\n' :: _ => skip 2
  | _ => fail

/-- The end of a line or of the document. -/
def lineEnd : Scan Unit := do
  match ← peek with
  | none => pure ()
  | some _ => newline

/-- A comment. -/
def comment : Scan Unit := do
  let _ ← char (· == '#')
  let _ ← run isInLine
  pure ()

/-- What may follow on a line. -/
def lineTrailing : Scan Unit := do
  blanks
  let _ ← attempt comment
  lineEnd

/-- Blanks, comments and ends of lines. -/
def gap : Scan Unit := do
  let _ ← many do
    orElse
      (do let _ ← attempt comment
          newline)
      (do let _ ← run1 isBlank
          pure ())
  pure ()

/-! ## Texts -/

/-- Whether a character can stand between double quotes as it is. -/
def isPlain (c : Char) : Bool := isInLine c && c != '"' && c != '\\'

/-- Whether a character can stand between single quotes. -/
def isLiteral (c : Char) : Bool := isInLine c && c != '\''

/-- The value of a hexadecimal digit. -/
def hexDigit? (c : Char) : Option Nat :=
  if '0' ≤ c && c ≤ '9' then some (c.toNat - 48)
  else if 'a' ≤ c && c ≤ 'f' then some (c.toNat - 87)
  else if 'A' ≤ c && c ≤ 'F' then some (c.toNat - 55)
  else none

/-- A character by its number, in so many hexadecimal digits. -/
def hexEscape (n : Nat) : Scan Char := fromStart do
  let ds := ((← ahead).take n).filterMap hexDigit?
  skip n
  let code := ds.foldl (fun v d => v * 16 + d) 0
  if ds.length = n && (code < 0xD800 || (0xDFFF < code && code < 0x110000)) then
    pure (Char.ofNat code)
  else fail

/-- What follows a backslash. -/
def escapeCode : Scan Char := do
  let x ← char fun _ => true
  match x with
  | 'b' => pure '\x08'
  | 't' => pure '\t'
  | 'n' => pure '\n'
  | 'f' => pure '\x0c'
  | 'r' => pure '\r'
  | 'u' => must (hexEscape 4)
  | 'U' => must (hexEscape 8)
  | '\\' => pure '\\'
  | '"' => pure '"'
  | _ => wrong

/-- A character by its escape. -/
def escaped : Scan Char := do
  let _ ← char (· == '\\')
  escapeCode

/-- A text between double quotes. -/
def basicText : Scan String := do
  let _ ← char (· == '"')
  let parts ← many (orElse (run1 isPlain) (List.singleton <$> escaped))
  let _ ← must (char (· == '"'))
  pure (String.ofList parts.flatten)

/-- A text between single quotes. -/
def literalText : Scan String := do
  let _ ← char (· == '\'')
  let cs ← run isLiteral
  let _ ← must (char (· == '\''))
  pure (String.ofList cs)

/-- A backslash at the end of a line, and the blanks and lines that it joins. -/
def joinedLines : Scan (List Char) := do
  let _ ← char (· == '\\')
  blanks
  newline
  let _ ← many (orElse newline (do
    let _ ← run1 isBlank
    pure ()))
  pure []

/-- A piece of a text between three double quotes, other than quotes. -/
def basicPiece : Scan (List Char) :=
  orElse (run1 isPlain) <| orElse joinedLines <| orElse (List.singleton <$> escaped) <| do
    newline
    pure ['\n']

/-- A piece of a text between three single quotes, other than quotes. -/
def literalPiece : Scan (List Char) :=
  orElse (run1 isLiteral) <| do
    newline
    pure ['\n']

/-- Two quotes or one, with something behind them that must not be passed over. -/
def quotes (quote : Char) (behind : Scan Unit) : Scan (List Char) :=
  let some' (n : Nat) : Scan (List Char) := do
    if List.replicate n quote |>.isPrefixOf (← ahead) then skip n else fail
    let here ← get
    behind
    set here
    pure (List.replicate n quote)
  orElse (some' 2) (some' 1)

/-- A text of several lines between three quotes. -/
def longText (quote : Char) (piece : Scan (List Char)) : Scan String := do
  let delimiter := String.ofList (List.replicate 3 quote)
  word delimiter
  let _ ← attempt newline
  let body ← must do
    let first ← many piece
    let more ← many do
      let qs ← quotes quote (do
        let _ ← piece
        pure ())
      let ps ← many piece
      pure (qs ++ ps.flatten)
    let last ← attempt (quotes quote (word delimiter))
    pure (first.flatten ++ more.flatten ++ last.getD [])
  must (word delimiter)
  pure (String.ofList body)

/-- A text. -/
def anyText : Scan String :=
  orElse (longText '"' basicPiece) <| orElse basicText <|
    orElse (longText '\'' literalPiece) literalText

/-! ## Numbers -/

/-- Whether a character is a digit of a base. -/
def isDigitOf (base : Nat) (c : Char) : Bool := (hexDigit? c).any (· < base)

/-- A decimal digit. -/
def isDigit (c : Char) : Bool := isDigitOf 10 c

/-- Digits that follow a digit; a line between two of them is passed over. -/
def moreDigits (base : Nat) : Scan (List Char) := do
  many <| orElse (char (isDigitOf base)) do
    let _ ← char (· == '_')
    must (char (isDigitOf base))

/-- Digits, at least one. -/
def digits (base : Nat) : Scan (List Char) := do
  let d ← char (isDigitOf base)
  let ds ← moreDigits base
  pure (d :: ds)

/-- The number of digits. -/
def numberOf (base : Nat) (ds : List Char) : Nat :=
  ds.foldl (fun n c => n * base + (hexDigit? c).getD 0) 0

/-- A sign; whether it is a minus. -/
def sign : Scan Bool := do
  match ← attempt (char fun c => c == '+' || c == '-') with
  | some c => pure (c == '-')
  | none => pure false

/-- A sign and digits, the first of which is a zero only if it stands alone. -/
def signedDigits : Scan (Bool × List Char) := do
  let negative ← sign
  match ← attempt (char fun c => '1' ≤ c && c ≤ '9') with
  | some d => do pure (negative, d :: (← moreDigits 10))
  | none => do
    let d ← char isDigit
    pure (negative, [d])

/-- The least integer. -/
def minInteger : Int := -0x8000000000000000

/-- The greatest integer. -/
def maxInteger : Int := 0x7fffffffffffffff

/-- An integer, which must be in range. -/
def inRange (n : Int) : Scan Int := if minInteger ≤ n ∧ n ≤ maxInteger then pure n else wrong

/-- An integer. -/
def integer : Scan Int := fun c =>
  let based (base : Nat) : Scan Int := do
    skip 2
    let ds ← must (digits base)
    pure (numberOf base ds : Int)
  let check (r : Scan Int) : Scan Int := fun c =>
    match r c with
    | .ok n d =>
      match inRange n d with
      | .ok n d => .ok n d
      | .error e _ => .error e c
    | .error e d => .error e d
  match c.rest with
  | '0' :: 'x' :: _ => check (based 16) c
  | '0' :: 'o' :: _ => check (based 8) c
  | '0' :: 'b' :: _ => check (based 2) c
  | _ => check (do
    let (negative, ds) ← signedDigits
    let n : Int := numberOf 10 ds
    pure (if negative then -n else n)) c

/-- An exponent of ten. -/
def exponent : Scan Int := do
  let _ ← char fun c => c == 'e' || c == 'E'
  let negative ← sign
  let ds ← must (digits 10)
  let n : Int := numberOf 10 ds
  pure (if negative then -n else n)

/-- A number with a fraction, an exponent or both; it must not be too large. -/
def decimal : Scan Float := fun c =>
  let parts : Scan (Bool × List Char × List Char × Int) := do
    let (negative, whole) ← signedDigits
    match ← attempt exponent with
    | some e => pure (negative, whole, [], e)
    | none => do
      let _ ← char (· == '.')
      let fraction ← must (digits 10)
      let e ← attempt exponent
      pure (negative, whole, fraction, e.getD 0)
  match parts c with
  | .error e d => .error e d
  | .ok (negative, whole, fraction, e) d =>
    let x := Decimal.nearest (numberOf 10 (whole ++ fraction)) (e - fraction.length)
    let x := if negative then -x else x
    if x.isInf && !negative then .error .hard c else .ok x d

/-- Infinity or what is no number, with a sign or without. -/
def specialFloat : Scan Float := do
  let negative ← sign
  let x ← orElse (do word "inf"; pure (1.0 / 0.0 : Float)) (do word "nan"; pure (0.0 / 0.0 : Float))
  pure (if negative then -x else x)

/-- A float. -/
def float : Scan Float := orElse decimal specialFloat

/-! ## Dates -/

/-- A number of so many digits in a range. -/
def numberIn (width low high : Nat) : Scan Nat := fromStart do
  let ds := ((← ahead).take width).takeWhile isDigit
  skip width
  let n := numberOf 10 ds
  if ds.length = width && low ≤ n && n ≤ high then pure n else fail

/-- The number of days of a month. -/
def daysIn (year month : Nat) : Nat :=
  if month = 2 then
    if year % 4 = 0 ∧ (year % 100 ≠ 0 ∨ year % 400 = 0) then 29 else 28
  else if month = 4 ∨ month = 6 ∨ month = 9 ∨ month = 11 then 30
  else 31

/-- A day. -/
def day : Scan Unit := do
  let y ← numberIn 4 0 9999
  let _ ← char (· == '-')
  let m ← must (numberIn 2 1 12)
  let _ ← must (char (· == '-'))
  let _ ← must (numberIn 2 1 (daysIn y m))
  pure ()

/-- A time of a day. -/
def time : Scan Unit := do
  let _ ← numberIn 2 0 23
  let _ ← char (· == ':')
  must do
    let _ ← numberIn 2 0 59
    let _ ← char (· == ':')
    let _ ← numberIn 2 0 60
    let _ ← attempt do
      let _ ← char (· == '.')
      run1 isDigit
    pure ()

/-- An offset from universal time. -/
def zone : Scan Unit :=
  orElse
    (do let _ ← char fun c => c == 'Z' || c == 'z'
        pure ())
    (do let _ ← char fun c => c == '+' || c == '-'
        must do
          let _ ← numberIn 2 0 23
          let _ ← char (· == ':')
          let _ ← numberIn 2 0 59
          pure ())

/-- A day, a time or both. -/
def date : Scan Unit :=
  orElse
    (do day
        let _ ← attempt do
          let _ ← char fun c => c == 'T' || c == 't' || c == ' '
          time
          attempt zone
        pure ())
    time

end Scan

end ScriptedActions.Toml
