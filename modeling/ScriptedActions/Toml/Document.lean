import ScriptedActions.Toml.Scanner
import ScriptedActions.Toml.Value

/-!
# TOML documents

A document is a sequence of lines: members of the table that the last header opened, and headers.
`Document.read` gives the members of the root table, or the line and the column of the first
fault. How deeply values and keys nest is bounded.
-/

set_option autoImplicit false

namespace ScriptedActions.Toml

/-- The number of nested brackets, or of parts of a key, that a document stays below. -/
def nestingBound : Nat := 80

namespace Scan

/-! ## Keys -/

/-- Whether a character can stand in a key without quotes. -/
def isBare (c : Char) : Bool := c.isAlphanum || c == '_' || c == '-'

/-- A part of a key. -/
def simpleKey : Scan Key := do
  let start ← offset
  match ← peek with
  | some '"' => do pure ⟨← basicText, start⟩
  | some '\'' => do pure ⟨← literalText, start⟩
  | _ => do pure ⟨String.ofList (← run1 isBare), start⟩

/-- A key: what is in front of its last dot, and the last part. -/
def key : Scan (List Key × Key) := fun c =>
  let parts := separated1 (do
    blanks
    let k ← simpleKey
    blanks
    pure k) '.'
  match parts c with
  | .ok ks d =>
    match ks.reverse with
    | k :: before => if ks.length < nestingBound then .ok (before.reverse, k) d else .error .soft c
    | [] => .error .soft c
  | .error e d => .error e d

/-! ## Values -/

/-- An array of values. -/
def array (value : Scan Value) : Scan (List Value) := do
  let _ ← char (· == '[')
  match ← peek with
  | some ']' =>
    skip 1
    pure []
  | _ => do
    let items ← must do
      let items ← separated (do
        gap
        let v ← value
        gap
        pure v) ','
      if !items.isEmpty then let _ ← attempt (char (· == ','))
      gap
      pure items
    let _ ← must (char (· == ']'))
    pure items

/-- A member of a table: its key and its value, with blanks behind it. -/
def keyValue (value : Scan Value) : Scan ((List Key × Key) × Value) := do
  let k ← key
  let v ← must do
    let _ ← char (· == '=')
    blanks
    let v ← value
    blanks
    pure v
  pure (k, v)

/-- The members of a table between braces. -/
def inlineTable (value : Scan Value) : Scan Members := do
  let _ ← char (· == '\x7b')
  let here ← get
  let pairs ← must (separated (keyValue value) ',')
  blanks
  let declared := pairs.foldlM (fun ms ((before, k), v) => Members.put ms before k v) []
  match declared with
  | some ms =>
    let _ ← must (char (· == '\x7d'))
    pure ms
  | none =>
    set here
    wrong

/-- A value that starts with a digit or a sign. -/
def number (start : Nat) : Scan Value :=
  orElse (do date; pure (.date start)) <|
    orElse (do pure (.float (← float) start)) (do pure (.integer (← integer) start))

/-- A value. Its first character tells what it is to be; `nested` reads the values inside of it,
if it may hold some. -/
def valueWith (nested : Option (Scan Value)) : Scan Value := do
  let start ← offset
  match ← peek with
  | some '"' | some '\'' => do pure (.text (← anyText) start)
  | some '[' =>
    match nested with
    | some value => do pure (.array (← array value) start)
    | none => wrong
  | some '\x7b' =>
    match nested with
    | some value => do pure (.inline (← inlineTable value) start)
    | none => wrong
  | some '_' => do pure (.integer (← integer) start)
  | some '.' => do pure (.float (← float) start)
  | some 't' => do
    must (word "true")
    pure (.bool true start)
  | some 'f' => do
    must (word "false")
    pure (.bool false start)
  | some 'i' | some 'n' => do pure (.float (← specialFloat) start)
  | some c => if c == '+' || c == '-' || isDigit c then number start else fail
  | none => fail

/-- A value with at most so many brackets inside of each other. -/
def valueWithin : Nat → Scan Value
  | 0 => valueWith none
  | n + 1 => valueWith (some (valueWithin n))

/-- A value. -/
def value : Scan Value := valueWithin (nestingBound - 1)

end Scan

/-! ## Lines -/

/-- A document up to a line: the tables that are complete, and the one whose members follow. -/
structure Draft where
  root : Members
  /-- The header of the current table; none for the root. -/
  header : Option (List Key × Key)
  /-- Whether the current table is one of an array of tables. -/
  isOneOfMany : Bool
  start : Nat
  members : Members
deriving Inhabited

namespace Draft

/-- The draft of a document in front of its first line. -/
def empty : Draft := ⟨[], none, false, 0, []⟩

/-- The current table. -/
def current (d : Draft) : Value := .table false false (some d.start) d.members

/-- The members of the root once the current table is complete. -/
def complete (d : Draft) : Option Members :=
  match d.header with
  | none => some d.members
  | some (before, k) =>
    Members.within d.root before fun ms =>
      if d.isOneOfMany then
        match ms.get? k.name with
        | some (.tables items) => some (ms.set k.name (.tables (items ++ [d.current])))
        | _ => none
      else if (ms.get? k.name).isSome then none
      else some (ms ++ [(k, d.current)])

/-- Declares a member of the current table. -/
def declare (d : Draft) (before : List Key) (k : Key) (v : Value) : Option Draft :=
  (Members.put d.members before k v).map fun ms => { d with members := ms }

/-- Opens a table. It may have been made before by the names of tables below it, and then keeps
its members. -/
def openTable (d : Draft) (before : List Key) (k : Key) (start : Nat) : Option Draft := do
  let root ← d.complete
  let earlier := Members.lookup root (before ++ [k])
  let members ←
    match earlier with
    | none => some []
    | some (.table true false _ ms) => some ms
    | some _ => none
  let root ← Members.within root before fun ms => some (ms.erase k.name)
  pure ⟨root, some (before, k), false, start, members⟩

/-- Opens a table of an array of tables. -/
def openOneOfMany (d : Draft) (before : List Key) (k : Key) (start : Nat) : Option Draft := do
  let root ← d.complete
  let root ← Members.within root before fun ms =>
    match ms.get? k.name with
    | none => some (ms ++ [(k, .tables [])])
    | some (.tables _) => some ms
    | some _ => none
  pure ⟨root, some (before, k), true, start, []⟩

end Draft

namespace Scan

/-- A line with a member. -/
def memberLine (d : Draft) : Scan Draft := do
  let here ← get
  let (before, k) ← key
  let v ← must do
    let _ ← char (· == '=')
    blanks
    let v ← value
    lineTrailing
    pure v
  match d.declare before k v with
  | some d => pure d
  | none =>
    set here
    wrong

/-- A line with a header. -/
def headerLine (d : Draft) : Scan Draft := do
  let here ← get
  match here.rest with
  | '[' :: '[' :: _ =>
    skip 2
    let (before, k) ← must key
    must (word "]]")
    must lineTrailing
    match d.openOneOfMany before k here.offset with
    | some d => pure d
    | none =>
      set here
      wrong
  | '[' :: _ :: _ =>
    skip 1
    let (before, k) ← must key
    let _ ← must (char (· == ']'))
    must lineTrailing
    match d.openTable before k here.offset with
    | some d => pure d
    | none =>
      set here
      wrong
  | _ => wrong

/-- A line, and blanks in front of the next one. -/
def line (d : Draft) : Scan Draft := do
  let d ←
    match ← peek with
    | none => fail
    | some '#' => must do
      comment
      lineEnd
      pure d
    | some '[' => must (headerLine d)
    | some '\n' | some '\r' => do
      newline
      pure d
    | some _ => must (memberLine d)
  blanks
  pure d

/-- All lines of a document. Each is at least one character long, which bounds their number. -/
def lines : Nat → Draft → Scan Draft
  | 0, d => pure d
  | n + 1, d => do
    match ← attempt (line d) with
    | some d => lines n d
    | none => pure d

/-- The members of a document. -/
def document : Scan Members := do
  let _ ← attempt (char (· == '\uFEFF'))
  blanks
  let d ← lines ((← ahead).length + 1) .empty
  match ← peek with
  | some _ => wrong
  | none =>
    match d.complete with
    | some ms => pure ms
    | none => wrong

end Scan

/-! ## Reading a document -/

/-- A place in a text, line and column counted from one. -/
structure TextPlace where
  line : Nat
  column : Nat
deriving DecidableEq, Repr, Inhabited

/-- The place of an offset. Behind the end of a text the last line goes on. In front of a
character that takes more than one byte the bytes of the line are counted, else its characters. -/
def TextPlace.ofOffset (cs : List Char) (offset : Nat) : TextPlace :=
  let inside := min offset (cs.length - 1)
  let before := cs.take inside
  let inLine := before.reverse.takeWhile (· != '\n')
  let isWide := offset = inside ∧ ((cs[inside]?).any fun c => 1 < c.utf8Size)
  let width := if isWide then inLine.foldl (fun n c => n + c.utf8Size) 0 else inLine.length
  ⟨before.count '\n' + 1, width + (offset - inside) + 1⟩

/-- What is wrong with a document, with the place if one is known. -/
structure DocumentError where
  place : Option TextPlace
deriving DecidableEq, Repr, Inhabited

/-- The first line of the wording of an error. -/
def DocumentError.message (e : DocumentError) : String :=
  match e.place with
  | some p => s!"TOML parse error at line {p.line}, column {p.column}"
  | none => "TOML parse error"

/-- The error at an offset of a text. -/
def DocumentError.atOffset (text : String) (offset : Option Nat) : DocumentError :=
  ⟨offset.map (TextPlace.ofOffset text.toList)⟩

/-- Reads a document. -/
def Document.read (text : String) : Except DocumentError Members :=
  match Scan.document ⟨text.toList, 0⟩ with
  | .ok ms _ => .ok ms
  | .error _ c => .error (.atOffset text (some c.offset))

end ScriptedActions.Toml
