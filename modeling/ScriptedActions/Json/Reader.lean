import ScriptedActions.Decimal.Reading
import ScriptedActions.Json.Error
import ScriptedActions.Json.Value

/-!
# Reading JSON text

A `Reader` goes through a text from front to back and stops at the first fault. A fault lies
either at the character just read (`fail`) or at the one that comes next (`failNext`), and its
place is told by the bytes read so far.

`value` reads any value and is strict: numbers must be representable, surrogates paired, and
arrays and objects at most 127 deep. `skipValue` only checks the grammar and so accepts more;
it serves where the value itself is not needed, and `rawValue` keeps the text that it passes.

Every value takes at least one character, and an array or object takes two steps, so twice the
number of characters of the text bounds all recursion; it is what the `fuel` arguments start
from (`Reader.bound`).
-/

set_option autoImplicit false

namespace ScriptedActions.Json

/-- The rest of a text and the place reached. -/
structure Cursor where
  rest : List Char
  line : Nat
  column : Nat
  /-- How many more arrays and objects may be opened inside each other, one more. -/
  depth : Nat
  /-- More than twice the number of characters of the whole text. -/
  bound : Nat
deriving Repr

/-- How deep arrays and objects may nest, one more. -/
def depthLimit : Nat := 128

/-- The start of a text. -/
def Cursor.start (text : String) : Cursor := ⟨text.toList, 1, 0, depthLimit, 2 * (text.length + 1)⟩

/-- The place reached. -/
def Cursor.place (c : Cursor) : Place := ⟨c.line, c.column⟩

/-- The place after one more byte, or the end of the text. -/
def Cursor.nextPlace (c : Cursor) : Place :=
  match c.rest with
  | [] => c.place
  | '\n' :: _ => ⟨c.line + 1, 0⟩
  | _ :: _ => ⟨c.line, c.column + 1⟩

/-- Passes one character. -/
def Cursor.advance (c : Cursor) : Cursor :=
  match c.rest with
  | [] => c
  | '\n' :: rest => { c with rest := rest, line := c.line + 1, column := 0 }
  | x :: rest => { c with rest := rest, column := c.column + x.utf8Size }

/-- A reader of a text. A failed reading also says how far it got. -/
abbrev Reader := EStateM Error Cursor

namespace Reader

/-- Stops at the character just read. -/
def fail {α : Type} (cause : Cause) : Reader α := fun c => .error ⟨cause, some c.place⟩ c

/-- Stops at the character that comes next. -/
def failNext {α : Type} (cause : Cause) : Reader α :=
  fun c => .error ⟨cause, some c.nextPlace⟩ c

/-- Stops with a mismatch whose place is filled in by the reader around it. -/
def mismatch {α : Type} (reason : String) : Reader α := fun c => .error (.mismatch reason) c

/-- The next character, if there is one. -/
def peek : Reader (Option Char) := fun c => .ok c.rest.head? c

/-- Passes one character. -/
def skip : Reader Unit := fun c => .ok () c.advance

/-- Takes the next character. -/
def next : Reader (Option Char) := fun c => .ok c.rest.head? c.advance

/-- Whether a character is blank in JSON. -/
def isBlank (c : Char) : Bool := c == ' ' || c == '\n' || c == '\t' || c == '\r'

/-- The cursor behind the blanks in front of it. -/
def afterBlanks : List Char → Cursor → Cursor
  | [], c => c
  | x :: rest, c => if isBlank x then afterBlanks rest c.advance else c

/-- Passes blanks and shows what comes next. -/
def peekToken : Reader (Option Char) := fun c =>
  let c := afterBlanks c.rest c
  .ok c.rest.head? c

/-- Fills in the place of a mismatch: the place reached. -/
def located {α : Type} (r : Reader α) : Reader α := fun c =>
  match r c with
  | .ok a c => .ok a c
  | .error e c => .error ⟨e.cause, e.place.or (some c.place)⟩ c

/-- Reads the rest of a word. -/
def word : List Char → Reader Unit
  | [] => pure ()
  | x :: rest => do
    match ← next with
    | none => fail .valueEnds
    | some y => if x == y then word rest else fail .expectedIdent

/-! ## Strings -/

/-- The value of four hexadecimal digits. -/
def hexValue (cs : List Char) : Option Nat :=
  cs.foldl (fun n c => do
    let n ← n
    let d ← if c.isDigit then some (c.toNat - 48)
      else if 'a' ≤ c ∧ c ≤ 'f' then some (c.toNat - 87)
      else if 'A' ≤ c ∧ c ≤ 'F' then some (c.toNat - 55)
      else none
    pure (16 * n + d)) (some 0)

/-- The number of bytes of some characters. -/
def byteLength (cs : List Char) : Nat := cs.foldl (fun n c => n + c.utf8Size) 0

/-- Four hexadecimal digits. A place inside a character of several bytes still counts as four
bytes further on. -/
def hexEscape : Reader Nat := fun c =>
  let four := c.rest.take 4
  match if four.length = 4 then hexValue four else none with
  | some n => .ok n { c with rest := c.rest.drop 4, column := c.column + 4 }
  | none =>
    if byteLength four < 4 then
      let c := { c with rest := [], column := c.column + byteLength four }
      .error ⟨.stringEnds, some c.place⟩ c
    else
      let c := { c with column := c.column + 4 }
      .error ⟨.invalidEscape, some c.place⟩ c

/-- The character that must come next; the end of the text is a fault. -/
def peekInString : Reader Char := do
  match ← peek with
  | some x => pure x
  | none => fail .stringEnds

/-- Moves one byte on and stops. -/
def failPast {α : Type} (cause : Cause) : Reader α := fun c =>
  .error ⟨cause, some c.nextPlace⟩ c

/-- Passes a character with which the second half of a surrogate pair must go on. -/
def secondHalf (x : Char) : Reader Unit := do
  if (← peekInString) == x then skip else failPast .unfinishedEscape

/-- The character of a `\u` escape: one unit, or two that form a surrogate pair. -/
def unicodeEscape : Reader Char := do
  let n ← hexEscape
  if 0xDC00 ≤ n && n ≤ 0xDFFF then fail .loneSurrogate
  else if n < 0xD800 || 0xDBFF < n then pure (Char.ofNat n)
  else
    secondHalf '\\'
    secondHalf 'u'
    let m ← hexEscape
    if m < 0xDC00 || 0xDFFF < m then fail .loneSurrogate
    else pure (Char.ofNat ((n - 0xD800) * 1024 + (m - 0xDC00) + 0x10000))

/-- The character that an escape other than `\u` stands for. -/
def simpleEscape : Char → Option Char
  | '"' => some '"'
  | '\\' => some '\\'
  | '/' => some '/'
  | 'b' => some '\x08'
  | 'f' => some '\x0c'
  | 'n' => some '\n'
  | 'r' => some '\r'
  | 't' => some '\t'
  | _ => none

/-- The rest of a string whose opening quote has been read. -/
def stringRest : Nat → String → Reader String
  | 0, _ => fail .stringEnds
  | fuel + 1, text => do
    match ← peek with
    | none => fail .stringEnds
    | some '"' => skip; pure text
    | some '\\' =>
      skip
      match ← next with
      | none => fail .stringEnds
      | some 'u' => let x ← unicodeEscape; stringRest fuel (text.push x)
      | some e =>
        match simpleEscape e with
        | some x => stringRest fuel (text.push x)
        | none => fail .invalidEscape
    | some x =>
      skip
      if x.toNat < 0x20 then fail .controlCharacter
      else stringRest fuel (text.push x)

/-- Passes the rest of a string; its escapes need not form characters. -/
def skipStringRest : Nat → Reader Unit
  | 0 => fail .stringEnds
  | fuel + 1 => do
    match ← peek with
    | none => fail .stringEnds
    | some '"' => skip
    | some '\\' =>
      skip
      match ← next with
      | none => fail .stringEnds
      | some 'u' => let _ ← hexEscape; skipStringRest fuel
      | some e => if (simpleEscape e).isSome then skipStringRest fuel else fail .invalidEscape
    | some x =>
      if x.toNat < 0x20 then fail .controlCharacter
      else skip; skipStringRest fuel

/-- A bound on the characters left. -/
def bound : Reader Nat := fun c => .ok c.bound c

/-- The rest of a string whose opening quote has been read. -/
def string : Reader String := do stringRest (← bound) ""

/-! ## Numbers -/

/-- Whether a character is a decimal digit. -/
def isDigit (c : Char) : Bool := '0' ≤ c && c ≤ '9'

/-- The value of a decimal digit. -/
def digitValue (c : Char) : Nat := c.toNat - 48

/-- Takes digits as long as the number stays below `2 ^ 64`. -/
def digitsWithin (limit : Nat) : Nat → Nat → Nat → Reader (Nat × Nat)
  | 0, n, count => pure (n, count)
  | fuel + 1, n, count => do
    match ← peek with
    | some x =>
      if isDigit x && 10 * n + digitValue x ≤ limit then
        skip
        digitsWithin limit fuel (10 * n + digitValue x) (count + 1)
      else pure (n, count)
    | none => pure (n, count)

/-- Passes digits and counts them. -/
def skipDigits : Nat → Nat → Reader Nat
  | 0, count => pure count
  | fuel + 1, count => do
    match ← peek with
    | some x => if isDigit x then skip; skipDigits fuel (count + 1) else pure count
    | none => pure count

/-- The greatest significand that is kept digit by digit. -/
def maxSignificand : Nat := 0xffffffffffffffff

/-- The greatest exponent that is kept digit by digit. -/
def maxExponent : Nat := 0x7fffffff

/-- Scales a float by a power of ten, one table entry (up to `1e308`) at a time. The result can
differ from the nearest float in its last digit; it is what the two roundings give. -/
def scale : Nat → Float → Int → Option Float
  | 0, f, _ => some f
  | fuel + 1, f, e =>
    if -308 ≤ e ∧ e ≤ 308 then
      if 0 ≤ e then
        let f := f * Decimal.nearest 1 e
        if f.isInf then none else some f
      else some (f / Decimal.nearest 1 (-e))
    else if f == 0.0 then some f
    else if 0 ≤ e then none
    else scale fuel (f / 1e308) (e + 308)

/-- The float of a significand and a power of ten. -/
def floatOf (positive : Bool) (significand : Nat) (exponent : Int) : Reader Float :=
  match scale 8 (Decimal.nearest significand 0) exponent with
  | some f => pure (if positive then f else -f)
  | none => fail .numberOutOfRange

/-- The sign of an exponent, if it has one: whether the exponent is positive. -/
def exponentSign : Reader Bool := do
  match ← peek with
  | some '+' => skip; pure true
  | some '-' => skip; pure false
  | _ => pure true

/-- The digits of an exponent, of which `up` says whether it is positive. -/
def exponentDigits (positive : Bool) (significand : Nat) (start : Int) (up : Bool) :
    Reader Float := do
  match ← next with
  | none => fail .valueEnds
  | some x =>
    if !isDigit x then fail .invalidNumber
    else
      let (e, _) ← digitsWithin maxExponent (← bound) (digitValue x) 0
      match ← peek with
      | some y =>
        if isDigit y then
          -- the exponent has too many digits to be kept
          skip
          if significand != 0 && up then fail .numberOutOfRange
          else
            let _ ← skipDigits (← bound) 0
            pure (if positive then 0.0 else -0.0)
        else floatOf positive significand (if up then start + e else start - e)
      | none => floatOf positive significand (if up then start + e else start - e)

/-- The exponent of a number, from its `e` on. -/
def exponentPart (positive : Bool) (significand : Nat) (start : Int) : Reader Float := do
  skip
  exponentDigits positive significand start (← exponentSign)

/-- What follows the digits of a float: an exponent or nothing. -/
def floatEnd (positive : Bool) (significand : Nat) (exponent : Int) : Reader Float := do
  match ← peek with
  | some 'e' | some 'E' => exponentPart positive significand exponent
  | _ => floatOf positive significand exponent

/-- The digits behind a point. -/
def fraction (positive : Bool) (significand : Nat) (exponent : Int) : Reader Float := do
  skip
  let (n, count) ← digitsWithin maxSignificand (← bound) significand 0
  match ← peek with
  | some x =>
    if isDigit x then
      let _ ← skipDigits (← bound) 0
      floatEnd positive n (exponent - count)
    else if count = 0 then failNext .invalidNumber
    else floatEnd positive n (exponent - count)
  | none => if count = 0 then failNext .valueEnds else floatEnd positive n (exponent - count)

/-- The digits of a number behind the first one, as far as they are kept. -/
def wholePart (x : Char) : Reader Nat :=
  if x == '0' then pure 0
  else Prod.fst <$> do digitsWithin maxSignificand (← bound) (digitValue x) 0

/-- What follows the digits of a number that are kept; `x` is the first of them. -/
def numberEnd (positive : Bool) (x : Char) (n : Nat) : Reader Json := do
  match ← peek with
  | some '.' => .float <$> fraction positive n 0
  | some 'e' | some 'E' => .float <$> exponentPart positive n 0
  | some y =>
    if isDigit y then
      if x == '0' then failNext .invalidNumber
      else
        let dropped ← skipDigits (← bound) 0
        match ← peek with
        | some '.' => .float <$> fraction positive n dropped
        | _ => .float <$> floatEnd positive n dropped
    else pure (whole n)
  | none => pure (whole n)
where
  /-- A number without point and exponent; minus zero and what no 64-bit integer holds are
  floats. -/
  whole (n : Nat) : Json :=
    if positive then .int n
    else if n = 0 ∨ 0x8000000000000000 < n then .float (-(Decimal.nearest n 0))
    else .int (-(n : Int))

/-- A number whose sign has been read. -/
def number (positive : Bool) : Reader Json := do
  match ← next with
  | none => fail .valueEnds
  | some x => if !isDigit x then fail .invalidNumber else numberEnd positive x (← wholePart x)

/-- Passes a number whose sign has been read. -/
def skipNumber : Reader Unit := do
  match ← next with
  | some '0' =>
    match ← peek with
    | some x => if isDigit x then failNext .invalidNumber else tail
    | none => tail
  | some x =>
    if isDigit x then
      let _ ← skipDigits (← bound) 0
      tail
    else fail .invalidNumber
  | none => fail .invalidNumber
where
  /-- Passes an exponent. -/
  exponent : Reader Unit := do
    skip
    match ← peek with
    | some '+' | some '-' => skip
    | _ => pure ()
    match ← next with
    | some x =>
      if isDigit x then
        let _ ← skipDigits (← bound) 0
      else fail .invalidNumber
    | none => fail .invalidNumber
  /-- Passes what follows the whole part. -/
  tail : Reader Unit := do
    match ← peek with
    | some '.' =>
      skip
      if (← skipDigits (← bound) 0) = 0 then failNext .invalidNumber
      match ← peek with
      | some 'e' | some 'E' => exponent
      | _ => pure ()
    | some 'e' | some 'E' => exponent
    | _ => pure ()

/-! ## Arrays and objects -/

/-- Whether another item follows in an array; `first` before any has been read. -/
def moreItems (first : Bool) : Reader Bool := do
  match ← peekToken with
  | none => failNext .listEnds
  | some ']' => pure false
  | some x =>
    if first then pure true
    else if x == ',' then
      skip
      match ← peekToken with
      | some ']' => failNext .trailingComma
      | some _ => pure true
      | none => failNext .valueEnds
    else failNext .expectedListComma

/-- Whether another member follows in an object; if so its opening quote comes next. -/
def moreMembers (first : Bool) : Reader Bool := do
  match ← peekToken with
  | none => failNext .objectEnds
  | some '}' => pure false
  | some x =>
    if first then
      if x == '"' then pure true else failNext .keyNotString
    else if x == ',' then
      skip
      match ← peekToken with
      | some '"' => pure true
      | some '}' => failNext .trailingComma
      | some _ => failNext .keyNotString
      | none => failNext .valueEnds
    else failNext .expectedObjectComma

/-- The colon behind a name. -/
def colon : Reader Unit := do
  match ← peekToken with
  | some ':' => skip
  | some _ => failNext .expectedColon
  | none => failNext .objectEnds

/-- The end of an array. -/
def endList : Reader Unit := do
  match ← peekToken with
  | some ']' => skip
  | some ',' =>
    skip
    match ← peekToken with
    | some ']' => failNext .trailingComma
    | _ => failNext .trailingCharacters
  | some _ => failNext .trailingCharacters
  | none => failNext .listEnds

/-- The end of an object. -/
def endObject : Reader Unit := do
  match ← peekToken with
  | some '}' => skip
  | some ',' => failNext .trailingComma
  | some _ => failNext .trailingCharacters
  | none => failNext .objectEnds

/-- A name and the colon behind it. -/
def memberName : Reader String := do
  skip
  string

/-- Opens an array or an object. -/
def enter : Reader Unit := fun c =>
  if c.depth ≤ 1 then .error ⟨.tooDeep, some c.nextPlace⟩ c
  else .ok () { c.advance with depth := c.depth - 1 }

/-- Leaves an array or an object whose end has been read. -/
def leave : Reader Unit := fun c => .ok () { c with depth := c.depth + 1 }

mutual

/-- Any value. -/
def valueWith : Nat → Reader Json
  | 0 => fail .expectedValue
  | fuel + 1 => do
    match ← peekToken with
    | none => failNext .valueEnds
    | some 'n' => skip; word ['u', 'l', 'l']; pure .null
    | some 't' => skip; word ['r', 'u', 'e']; pure (.bool true)
    | some 'f' => skip; word ['a', 'l', 's', 'e']; pure (.bool false)
    | some '-' => skip; number false
    | some '"' => skip; .string <$> string
    | some '[' =>
      enter
      let items ← itemsWith fuel true []
      endList
      leave
      pure (.array items)
    | some '{' =>
      enter
      let members ← membersWith fuel true []
      endObject
      leave
      pure (.object members)
    | some x => if isDigit x then number true else failNext .expectedValue

/-- The items of an array, up to its end; `done` holds those read, the last one first. -/
def itemsWith : Nat → Bool → List Json → Reader (List Json)
  | 0, _, _ => fail .listEnds
  | fuel + 1, first, done => do
    if ← moreItems first then
      let v ← valueWith fuel
      itemsWith fuel false (v :: done)
    else pure done.reverse

/-- The members of an object, up to its end; of several of one name the last one counts. -/
def membersWith : Nat → Bool → Table Json → Reader (Table Json)
  | 0, _, _ => fail .objectEnds
  | fuel + 1, first, done => do
    if ← moreMembers first then
      let name ← memberName
      colon
      let v ← valueWith fuel
      membersWith fuel false (done.insert name v)
    else pure done

end

mutual

/-- Passes a value, checking its grammar alone. -/
def skipValueWith : Nat → Reader Unit
  | 0 => fail .expectedValue
  | fuel + 1 => do
    match ← peekToken with
    | none => failNext .valueEnds
    | some 'n' => skip; word ['u', 'l', 'l']
    | some 't' => skip; word ['r', 'u', 'e']
    | some 'f' => skip; word ['a', 'l', 's', 'e']
    | some '-' => skip; skipNumber
    | some '"' => skip; skipStringRest (← bound)
    | some '[' =>
      skip
      match ← peekToken with
      | some ']' => skip
      | some _ => skipItemsWith fuel
      | none => failNext .listEnds
    | some '{' =>
      skip
      match ← peekToken with
      | some '}' => skip
      | some _ => skipMembersWith fuel
      | none => failNext .objectEnds
    | some x => if isDigit x then skipNumber else failNext .expectedValue

/-- Passes the items of an array and its end. -/
def skipItemsWith : Nat → Reader Unit
  | 0 => fail .listEnds
  | fuel + 1 => do
    skipValueWith fuel
    match ← peekToken with
    | some ',' => skip; skipItemsWith fuel
    | some ']' => skip
    | some _ => failNext .expectedListComma
    | none => failNext .listEnds

/-- Passes the members of an object and its end. -/
def skipMembersWith : Nat → Reader Unit
  | 0 => fail .objectEnds
  | fuel + 1 => do
    match ← peekToken with
    | some '"' => skip
    | some _ => failNext .keyNotString
    | none => failNext .objectEnds
    skipStringRest (← bound)
    colon
    skipValueWith fuel
    match ← peekToken with
    | some ',' => skip; skipMembersWith fuel
    | some '}' => skip
    | some _ => failNext .expectedObjectComma
    | none => failNext .objectEnds

end

/-- Any value. -/
def value : Reader Json := do valueWith (← bound)

/-- Passes a value. -/
def skipValue : Reader Unit := do skipValueWith (← bound)

/-- Passes a value and gives its text, without the blanks around it. -/
def rawValue : Reader String := fun c =>
  let c := afterBlanks c.rest c
  match skipValue c with
  | .ok _ c' => .ok (String.ofList (c.rest.take (c.rest.length - c'.rest.length))) c'
  | .error e c' => .error e c'

/-- A reader behind which only blanks may follow. -/
def whole {α : Type} (r : Reader α) : Reader α := do
  let a ← r
  match ← peekToken with
  | some _ => failNext .trailingCharacters
  | none => pure a

/-- Runs a reader on a whole text. -/
def run {α : Type} (r : Reader α) (text : String) : Except Error α :=
  match whole r (.start text) with
  | .ok a _ => .ok a
  | .error e _ => .error e

end Reader

/-- The value that a text spells. -/
def parse (text : String) : Except Error Json := Reader.run Reader.value text

end ScriptedActions.Json
