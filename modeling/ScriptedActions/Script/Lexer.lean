import ScriptedActions.Decimal.Reading
import ScriptedActions.Script.Token
import ScriptedActions.Text.Blank

/-!
# From characters to tokens

`Token.scan` splits a script into words and ends them with the end of the script, or with the
first word that is at fault. Text between back-ticks may hold blocks: the words of a block
stand between the pieces of the text, and the brace that closes the block takes the scan back
into the text. The scan keeps the open braces of every block on a stack for this.

Every word takes at least one character, so the number of characters bounds the scan.
-/

set_option autoImplicit false

namespace ScriptedActions.Script

/-- What is left of a script, and the place of the last character taken. -/
structure Scan where
  rest : List Char
  place : Place
deriving Repr

namespace Scan

/-- Takes one character that is known to be there. -/
def advance (s : Scan) : Scan := ⟨s.rest.tail, s.place.next⟩

/-- Takes several characters of the same line. -/
def skip (s : Scan) (n : Nat) : Scan := ⟨s.rest.drop n, ⟨s.place.line, s.place.column + n⟩⟩

/-- The next character. -/
def peek (s : Scan) : Option Char := s.rest.head?

/-! ## Text -/

/-- How a text is written, and where it started. -/
structure TextRule where
  /-- The character at both ends. -/
  quote : Char
  /-- Whether line breaks and backslashes stand for themselves. -/
  verbatim : Bool
  /-- Whether a backslash at the end of a line continues the text on the next one. -/
  continues : Bool
  /-- Whether blocks may be embedded. -/
  blocks : Bool
  /-- The greatest number of bytes; zero sets no limit. -/
  limit : Nat
  /-- The place of the opening quote. -/
  start : Place

/-- A text that has been read. -/
structure TextPiece where
  text : String
  /-- Whether an embedded block follows. -/
  block : Bool
  /-- The place of the first character between the quotes. -/
  first : Place
  scan : Scan

/-- The value of a hexadecimal digit. -/
def hexDigit (c : Char) : Option Nat :=
  if isDigit c then some (c.toNat - 48)
  else if 'a' ≤ c && c ≤ 'f' then some (c.toNat - 87)
  else if 'A' ≤ c && c ≤ 'F' then some (c.toNat - 55)
  else none

/-- The digits of an escape by code: `count` of them, behind what `seen` holds. -/
def codeEscape : Nat → String → Nat → Scan → Except (WordFault × Place) (Char × Scan)
  | 0, seen, n, s =>
    if n < 0xD800 || (0xDFFF < n && n < 0x110000) then .ok (Char.ofNat n, s)
    else .error (.badEscape seen, s.place)
  | count + 1, seen, n, s =>
    match s.peek with
    | none => .error (.badEscape seen, s.place)
    | some c =>
      let s := s.advance
      let seen := seen.push c
      match hexDigit c with
      | some d => codeEscape count seen (16 * n + d) s
      | none => .error (.badEscape seen, s.place)

/-- The piece that has been read, unless it is too long. -/
def TextRule.finish (r : TextRule) (done : String) (block : Bool) (first : Place) (s : Scan) :
    Except (WordFault × Place) TextPiece :=
  if r.limit ≠ 0 && r.limit < done.utf8ByteSize then .error (.longString r.limit, r.start)
  else .ok ⟨done, block, first, s⟩

/-- Reads text up to its end. `escaped` tells that a backslash came before, `skipTo` is the
column up to which the blanks of a continued line are passed over. -/
def text (r : TextRule) :
    Nat → Bool → Nat → Place → String → Scan → Except (WordFault × Place) TextPiece
  | 0, _, _, _, _, _ => .error (.openString, r.start)
  | fuel + 1, escaped, skipTo, first, done, s =>
    match s.peek with
    | none => .error (.openString, r.start)
    | some c =>
      let s := s.advance
      if r.blocks && c == '$' && !escaped && s.peek == some '\x7b' then
        r.finish done true first s
      else if r.limit ≠ 0 && r.limit < done.utf8ByteSize then
        .error (.longString r.limit, r.start)
      else if c == r.quote && !escaped && s.peek != some r.quote then
        r.finish done false first s
      else
        -- a doubled quote stands for one
        let s := if c == r.quote && !escaped then s.advance else s
        let first := first.or s.place
        if c == '\r' && s.peek == some '\n' then text r fuel escaped skipTo first done s
        else if c == '\\' && !r.verbatim && !escaped then text r fuel true skipTo first done s
        else if escaped then
          if c == '\\' then text r fuel false 0 first (done.push '\\') s
          else if c == 't' then text r fuel false 0 first (done.push '\t') s
          else if c == 'n' then text r fuel false 0 first (done.push '\n') s
          else if c == 'r' then text r fuel false 0 first (done.push '\r') s
          else if c == 'x' || c == 'u' || c == 'U' then
            let count := if c == 'x' then 2 else if c == 'u' then 4 else 8
            match codeEscape count ("\\".push c) 0 s with
            | .ok (x, s) => text r fuel false 0 first (done.push x) s
            | .error e => .error e
          else if c == r.quote then text r fuel false 0 first (done.push c) s
          else if c == '\n' then
            if r.continues then
              text r fuel false (r.start.column + 1) first done
                { s with place := s.place.newLine }
            else .error (.openString, r.start)
          else .error (.badEscape ("\\".push c), s.place)
        else if c == '\n' then
          if r.verbatim then
            text r fuel false 0 first (done.push '\n') { s with place := s.place.newLine }
          else .error (.openString, r.start)
        else if Text.isBlank c && s.place.column < skipTo then
          text r fuel false skipTo first done s
        else text r fuel false 0 first (done.push c) s

/-- Reads text whose opening quote is the last character taken. -/
def readText (quote : Char) (verbatim continues blocks : Bool) (limit : Nat) (s : Scan) :
    Except (WordFault × Place) TextPiece :=
  text ⟨quote, verbatim, continues, blocks, limit, s.place⟩ (s.rest.length + 1) false 0 .none "" s

/-- Reads raw text up to `close`, which is a quote and the hashes that also stand in front of the
text. -/
def rawText (close : List Char) (limit : Nat) (start : Place) :
    List Char → Place → String → Except (WordFault × Place) TextPiece
  | [], _, _ => .error (.openString, start)
  | c :: rest, p, done =>
    if close.isPrefixOf (c :: rest) then
      TextRule.finish ⟨'"', true, false, false, limit, start⟩ done false .none
        ((⟨c :: rest, p⟩ : Scan).skip close.length)
    else rawText close limit start rest (if c == '\n' then p.newLine else p.next) (done.push c)

/-- Reads raw text, of which the first hash has been taken. -/
def readRaw (limit : Nat) (s : Scan) : Except (WordFault × Place) TextPiece :=
  let hashes := s.rest.takeWhile (· == '#')
  let inner := s.skip hashes.length
  match inner.rest with
  | '"' :: rest => rawText ('"' :: '#' :: hashes) limit s.place rest inner.place.next ""
  | c :: _ => .error (.unexpected c.toString, s.place)
  | [] => .error (.openString, s.place)

/-! ## Comments -/

/-- Passes a comment up to the end of its line. -/
def lineComment : List Char → Place → Scan
  | [], p => ⟨[], p⟩
  | '\r' :: '\n' :: rest, p => ⟨rest, p.newLine⟩
  | '\r' :: rest, p => ⟨rest, p.newLine⟩
  | '\n' :: rest, p => ⟨rest, p.newLine⟩
  | _ :: rest, p => lineComment rest p.next

/-- Passes a comment that ends with a mark of its own; such comments nest, `level` deep. -/
def blockComment : Nat → List Char → Place → Scan
  | _, [], p => ⟨[], p⟩
  | level, '/' :: '*' :: rest, p => blockComment (level + 1) rest p.next.next
  | level, '*' :: '/' :: rest, p =>
    if level ≤ 1 then ⟨rest, p.next.next⟩ else blockComment (level - 1) rest p.next.next
  | level, '\n' :: rest, p => blockComment level rest p.newLine
  | level, _ :: rest, p => blockComment level rest p.next

/-! ## Numbers -/

/-- A number as it is read: its characters without underscores, the last one first. -/
structure Numeral where
  digits : List Char
  point : Bool
  exponent : Bool
  radix : Nat

/-- Whether a character is a digit of a number to some radix. -/
def isDigitOf (radix : Nat) (c : Char) : Bool :=
  if radix = 16 then (hexDigit c).isSome else isDigit c

/-- Takes the characters of a number. -/
def numeral : Nat → Numeral → Scan → Numeral × Scan
  | 0, n, s => (n, s)
  | fuel + 1, n, s =>
    match s.peek with
    | none => (n, s)
    | some c =>
      let then_ (x : Char) : Numeral := { n with digits := x :: n.digits }
      if c == '_' then numeral fuel n s.advance
      else if isDigitOf n.radix c then numeral fuel (then_ c) s.advance
      else if c == '.' && !n.point && n.radix = 10 then
        match s.rest.tail.head? with
        | some d =>
          if isDigit d then numeral fuel { then_ c with point := true } s.advance
          else if d == '_' || d == '.' || isLetter d then (n, s)
          else numeral fuel { n with digits := '0' :: c :: n.digits, point := true } s.advance
        | none => numeral fuel { n with digits := '0' :: c :: n.digits, point := true } s.advance
      else if c == 'e' && !n.exponent && n.radix = 10 then
        let floating (ds : List Char) : Numeral := ⟨ds ++ n.digits, true, true, 10⟩
        match s.rest.tail with
        | d :: _ =>
          if isDigit d then numeral fuel (floating [c]) s.advance
          else if d == '+' || d == '-' then numeral fuel (floating [d, c]) (s.skip 2)
          else (n, s)
        | [] => (n, s)
      else if n.digits == ['0'] && ['x', 'o', 'b', 'X', 'O', 'B'].contains c then
        let radix := if c.toLower == 'x' then 16 else if c.toLower == 'o' then 8 else 2
        numeral fuel { then_ c with radix := radix } s.advance
      else (n, s)

/-- The value of digits to a radix, if all are digits to it and there is one at least. -/
def digitsValue (radix : Nat) (cs : List Char) : Option Nat :=
  if cs.isEmpty then none
  else cs.foldl (fun n c => do
    let n ← n
    let d ← hexDigit c
    if d < radix then some (radix * n + d) else none) (some 0)

/-- The float that a decimal number spells. -/
def floatValue (cs : List Char) : Option Float := do
  let (mantissa, power) := cs.span (· != 'e')
  let (whole, fraction) := mantissa.span (· != '.')
  let places := fraction.drop 1
  let n ← digitsValue 10 (whole ++ places)
  let e ← match power.drop 1 with
    | [] => if power.isEmpty then some 0 else none
    | '-' :: ds => (digitsValue 10 ds).map fun d => -(d : Int)
    | '+' :: ds => (digitsValue 10 ds).map Int.ofNat
    | ds => (digitsValue 10 ds).map Int.ofNat
  pure (Decimal.nearest n (e - places.length))

/-- The token of a number: an integer where it is one and fits, else a float. -/
def Numeral.token (n : Numeral) (negative : Bool) : Token :=
  let cs := n.digits.reverse
  if n.radix = 10 then
    let whole := if n.point then none else digitsValue 10 cs
    match whole with
    | some v =>
      let v : Int := if negative then -(v : Int) else v
      if Int64.minValue.toInt ≤ v && v ≤ Int64.maxValue.toInt then .int (Int64.ofInt v) else decimal cs
    | none => decimal cs
  else
    let cs := cs.drop 2
    match digitsValue n.radix cs with
    | some v => if v ≤ 0xffffffffffffffff then .int (Int64.ofInt v) else .bad (.badNumber (String.ofList cs))
    | none => .bad (.badNumber (String.ofList cs))
where
  /-- The number as a float. -/
  decimal (cs : List Char) : Token :=
    match floatValue cs with
    | some x => .float (if negative then -x else x)
    | none => .bad (.badNumber ((if negative then "-" else "") ++ String.ofList cs))

/-! ## Symbols -/

/-- The symbols of two or more characters, longer ones before those they start with, except
those that need a look at more than their spelling. -/
def longSymbols : List String :=
  ["**=", "<<=", ">>=", "..=", "...", "===", "!==", "::<", "()", "(*", "#\x7b", "#!", "+=", "++", "-=",
   "->", "--", "*)", "*=", "**", "/=", "..", "==", "=>", "::", ":=", ":;", "<=", "<-", "<<", "<|",
   ">=", ">>", "!=", "!.", "||", "|=", "|>", "&&", "&=", "^=", "%=", "?.", "??", "?["]

/-- The symbols of one character. -/
def shortSymbols : List Char :=
  ['{', '}', '(', ')', '[', ']', '#', '+', '-', '*', '/', ';', ',', '.', '=', ':', '<', '>', '!',
   '|', '&', '^', '~', '%', '@', '$', '?']

/-- Symbols that mean nothing. -/
def reservedSymbols : List String :=
  ["===", "!==", "->", "<-", "?", ":=", ":;", "~", "!.", "::<", "(*", "*)", "#", "#!", "@", "$", "++",
   "--", "...", "<|", "|>"]

/-- A symbol as a token. -/
def symbolToken (s : String) : Token :=
  match advice s with
  | some a => .bad (.improper a)
  | none => if reservedSymbols.contains s then .reserved s else .symbol s

/-- A name, a keyword or a reserved word. -/
def nameToken (s : String) : Token :=
  if s == "_" || keywords.contains s then .symbol s
  else if reservedWords.contains s then .reserved s
  else if isName s then .name s
  else .bad (.badName s)

/-- The symbol at the front of a nonempty rest, and the number of its characters. -/
def symbol (rest : List Char) : Option (Token × Nat) :=
  match rest with
  | '#' :: ' ' :: '{' :: _ => some (symbolToken "# \x7b", 3)
  | '#' :: ' ' :: _ => some (symbolToken "#", 2)
  | '!' :: 'i' :: 'n' :: c :: _ =>
    if isNameChar c then some (.symbol "!", 1) else some (.symbol "!in", 3)
  | ['!', 'i', 'n'] => some (.symbol "!in", 3)
  | c :: _ =>
    match longSymbols.find? fun s => s.toList.isPrefixOf rest with
    | some s => some (if s == "#!" then .reserved s else symbolToken s, s.length)
    | none => if shortSymbols.contains c then some (symbolToken c.toString, 1) else none
  | [] => none

/-! ## Words -/

/-- Takes the words of a script. `signs` tells that a sign in front of a digit belongs to the
number; `blocks` counts the open braces of each embedded block, the innermost first. -/
def words (limit : Nat) : Nat → Bool → List Nat → Array Word → Scan → Array Word
  | 0, _, _, done, s => done.push ⟨.eof, s.place.next⟩
  | fuel + 1, signs, blocks, done, s =>
    let add (t : Token) (p : Place) (blocks : List Nat) (s : Scan) : Array Word :=
      match t with
      | .bad _ => (done.push ⟨t, p⟩).push ⟨.eof, s.place.next⟩
      | _ => words limit fuel t.allowsSign blocks (done.push ⟨t, p⟩) s
    let piece (p : Place) (blocks : List Nat) : Except (WordFault × Place) TextPiece → Array Word
      | .error (f, q) => add (.bad f) q blocks s
      | .ok t =>
        if t.block then add (.template t.text) p (0 :: blocks) t.scan
        else add (.text t.text) p blocks t.scan
    match s.peek with
    | none => done.push ⟨.eof, s.place.next⟩
    | some c =>
      let here := s.place.next
      let after := s.advance
      if c == '\n' then words limit fuel signs blocks done ⟨after.rest, s.place.newLine⟩
      else if isDigit c then
        let (n, s) := numeral (after.rest.length + 1) ⟨[c], false, false, 10⟩ after
        add (n.token false) here blocks s
      else if c == '-' && signs && (after.peek.map isDigit |>.getD false) then
        let first := after.advance
        let d := after.peek.getD '0'
        let (n, s) := numeral (first.rest.length + 1) ⟨[d], false, false, 10⟩ first
        add (n.token true) here blocks s
      else if c == '"' then piece here blocks (readText '"' false true false limit after)
      else if c == '\x60' then
        let body := match after.rest with
          | '\r' :: '\n' :: rest => ⟨rest, after.place.newLine⟩
          | '\r' :: rest => ⟨rest, after.place.newLine⟩
          | '\n' :: rest => ⟨rest, after.place.newLine⟩
          | _ => after
        piece here blocks (readText '\x60' true false true limit body)
      else if c == '#' && (after.peek == some '"' || after.peek == some '#') then
        piece here blocks (readRaw limit after)
      else if c == '\'' then
        if after.peek == some '\'' then add (.bad (.badChar "")) here blocks after
        else match readText '\'' false false false limit after with
          | .error (f, q) => add (.bad f) q blocks after
          | .ok t =>
            match t.text.toList with
            | [x] => add (.char x) here blocks t.scan
            | _ => add (.bad (.badChar t.text)) here blocks t.scan
      else if c == '/' && after.peek == some '/' then
        words limit fuel signs blocks done (lineComment after.rest.tail after.place.next)
      else if c == '/' && after.peek == some '*' then
        words limit fuel signs blocks done (blockComment 1 after.rest.tail after.place.next)
      else if isLetter c || c == '_' then
        let cs := s.rest.takeWhile isNameChar
        add (nameToken (String.ofList cs)) here blocks (s.skip cs.length)
      else if Text.isBlank c then words limit fuel signs blocks done after
      else match symbol s.rest with
        | none => add (.bad (.unexpected c.toString)) here blocks after
        | some (t, n) =>
          let s := s.skip n
          match t, blocks with
          | .symbol "\x7d", 1 :: outer =>
            -- the end of an embedded block: the text around it goes on
            let done := done.push ⟨t, here⟩
            match readText '\x60' true false true limit s with
            | .error (f, q) => (done.push ⟨.bad f, q⟩).push ⟨.eof, s.place.next⟩
            | .ok p =>
              if p.block then
                words limit fuel false (0 :: outer) (done.push ⟨.template p.text, p.first⟩) p.scan
              else words limit fuel false outer (done.push ⟨.text p.text, p.first⟩) p.scan
          | .symbol "\x7d", n :: outer => add t here ((n - 1) :: outer) s
          | .symbol "\x7b", n :: outer => add t here ((n + 1) :: outer) s
          | .symbol "#\x7b", n :: outer => add t here ((n + 1) :: outer) s
          | _, _ => add t here blocks s

end Scan

/-- The words of a script. `limit` bounds the bytes of a text; zero sets no limit. -/
def Token.scan (limit : Nat) (script : String) : Array Word :=
  let cs := script.toList
  Scan.words limit (cs.length + 1) true [] #[] ⟨cs, ⟨1, 0⟩⟩

end ScriptedActions.Script
