import ScriptedActions.Decimal.Layout
import ScriptedActions.Decimal.Reading
import ScriptedActions.Log
import ScriptedActions.Logging.Pattern
import ScriptedActions.Text.Alphanumeric
import ScriptedActions.Text.Blank

/-!
# Log directives

A directive sets a threshold for the events of a target, of a span or of spans with a certain
field, as in `target[span{field=value}]=level`. All parts but one may be left out. Directives are
ordered by how much they ask for, so that the one that says most comes first.
-/

set_option autoImplicit false

namespace ScriptedActions.Logging

/-- Which events are logged. -/
inductive Threshold where
  | off
  /-- Events of a level and of the more important ones. -/
  | upTo (level : Level)
deriving DecidableEq, Repr, Inhabited

/-- The name of a threshold. -/
def Threshold.name : Threshold → String
  | off => "off"
  | upTo level => level.name

/-- Why a filter cannot be read. -/
inductive FilterError where
  | malformed
  | unknownLevel
  | pattern (e : PatternError)
deriving DecidableEq, Repr, Inhabited

/-- The wording of a filter error. -/
def FilterError.message : FilterError → String
  | malformed => "invalid filter directive"
  | unknownLevel =>
    "error parsing level filter: expected one of \"off\", \"error\", \"warn\", \"info\", " ++
      "\"debug\", \"trace\", or a number 0-5"
  | pattern e => "invalid field filter: " ++ e.message

/-! ## Thresholds -/

/-- The digits of a natural number, which a plus may precede. -/
def natDigits? : List Char → Option (List Char)
  | [] | ['+'] => none
  | '+' :: ds => if ds.all Char.isDigit then some ds else none
  | ds => if ds.all Char.isDigit then some ds else none

/-- The threshold of a number. -/
def Threshold.ofNat? : Nat → Option Threshold
  | 0 => some off
  | 1 => some (upTo .error)
  | 2 => some (upTo .warn)
  | 3 => some (upTo .info)
  | 4 => some (upTo .debug)
  | 5 => some (upTo .trace)
  | _ => none

/-- Reads a threshold: its number, or its name in any case. -/
def Threshold.ofText? (s : String) : Option Threshold :=
  match natDigits? s.toList with
  | some ds => ofNat? (Decimal.ofDigits ds)
  | none =>
    let lower := Text.asciiLower s
    if lower = "off" then some off else (Level.names.lookup lower).map upTo

/-! ## Fields -/

/-- What the value of a field must be. -/
inductive FieldValue where
  | bool (b : Bool)
  | float (x : Float)
  | notANumber
  | int (n : Int)
  | nat (n : Nat)
  | pattern (s : String)
deriving Repr, Inhabited

namespace FieldValue

/-- How floats are written in directives. -/
def floatLayout : Decimal.Layout := ⟨-400, 400, "", false, "NaN"⟩

/-- Reads a natural number of 64 bits. -/
def nat? (s : String) : Option Nat :=
  (natDigits? s.toList).bind fun ds =>
    if Decimal.ofDigits ds ≤ 0xffffffffffffffff then some (Decimal.ofDigits ds) else none

/-- Reads a negative integer of 64 bits. -/
def negative? (s : String) : Option Int :=
  match s.toList with
  | '-' :: ds =>
    if !ds.isEmpty && ds.all Char.isDigit && Decimal.ofDigits ds ≤ 0x8000000000000000 then
      some (-(Decimal.ofDigits ds : Int))
    else none
  | _ => none

/-- Reads the value of a field; what is nothing else is a pattern. -/
def ofText (s : String) : Except PatternError FieldValue :=
  if s = "true" then .ok (bool true)
  else if s = "false" then .ok (bool false)
  else
    match nat? s, negative? s, Decimal.ofText? s with
    | some n, _, _ => .ok (nat n)
    | none, some n, _ => .ok (int n)
    | none, none, some x => .ok (if x.isNaN then notANumber else float x)
    | none, none, none => (Pattern.check s).map fun _ => pattern s

/-- Writes the value of a field. -/
def text : FieldValue → String
  | bool b => if b then "true" else "false"
  | float x => floatLayout.write x
  | notANumber => "NaN"
  | int n => toString n
  | nat n => toString n
  | pattern s => s

/-- The place of a kind of values in their order. -/
def rank : FieldValue → Nat
  | bool _ => 0
  | float _ => 1
  | notANumber => 2
  | int _ => 3
  | nat _ => 4
  | pattern _ => 5

/-- The order of values. -/
def order : FieldValue → FieldValue → Ordering
  | bool a, bool b => compare a b
  | float a, float b => if a < b then .lt else if b < a then .gt else .eq
  | int a, int b => compare a b
  | nat a, nat b => compare a b
  | pattern a, pattern b => compare a b
  | a, b => compare a.rank b.rank

end FieldValue

/-- Nothing comes before something. -/
def orderOption {α : Type} (order : α → α → Ordering) : Option α → Option α → Ordering
  | none, none => .eq
  | none, some _ => .lt
  | some _, none => .gt
  | some a, some b => order a b

/-- A field that a span must have, with a certain value or with any. -/
structure FieldMatch where
  name : String
  value : Option FieldValue
deriving Repr, Inhabited

namespace FieldMatch

/-- Reads a field and its value. -/
def ofText (s : List Char) : Except PatternError FieldMatch := do
  let name := String.ofList (s.takeWhile (· != '='))
  match s.dropWhile (· != '=') with
  | [] => pure ⟨name, none⟩
  | _ :: rest => pure ⟨name, some (← FieldValue.ofText (String.ofList (rest.takeWhile (· != '='))))⟩

/-- Writes a field. -/
def text (f : FieldMatch) : String :=
  match f.value with
  | some v => f.name ++ "=" ++ v.text
  | none => f.name

/-- The order of fields: one with a value comes behind one without. -/
def order (a b : FieldMatch) : Ordering :=
  (compare a.value.isSome b.value.isSome).then <|
    (compare a.name b.name).then (orderOption FieldValue.order a.value b.value)

end FieldMatch

/-! ## Directives -/

/-- A threshold and the events that it is for. -/
structure Directive where
  target : Option String
  span : Option String
  field : Option FieldMatch
  threshold : Threshold
deriving Repr, Inhabited

namespace Directive

/-- The directive for all events. -/
def all (t : Threshold) : Directive := ⟨none, none, none, t⟩

/-- Writes a directive. -/
def text (d : Directive) : String :=
  let spanText :=
    if d.span.isSome || d.field.isSome then
      "[" ++ d.span.getD "" ++ (d.field.elim "" fun f => "\x7b" ++ f.text ++ "\x7d") ++ "]"
    else ""
  let what := d.target.getD "" ++ spanText
  let mark := if d.target.isSome || d.span.isSome || d.field.isSome then "=" else ""
  what ++ mark ++ d.threshold.name

/-- Whether a directive asks for a span. -/
def isDynamic (d : Directive) : Bool := d.span.isSome || d.field.isSome

/-- The part of a directive that is decided by an event's own target and fields, if that is all
of it. -/
def isStatic (d : Directive) : Bool := !d.span.isSome && !d.field.any (·.value.isSome)

/-- The order of directives: by how much they ask for, and then by what. -/
def order (a b : Directive) : Ordering :=
  (orderOption compare (a.target.map String.utf8ByteSize) (b.target.map String.utf8ByteSize)).then <|
    (compare a.span.isSome b.span.isSome).then <|
    (compare a.field.isSome b.field.isSome).then <|
    (orderOption compare a.target b.target).then <|
    (orderOption compare a.span b.span).then <|
    orderOption FieldMatch.order a.field b.field

/-! ### Reading a directive -/

/-- What is being read; the number says at which byte it started. -/
inductive Stage where
  | start
  | levelOrTarget (from' : Nat)
  | span (from' : Nat)
  | field (from' : Nat)
  | fields
  | target
  | level (from' : Nat)
deriving DecidableEq, Repr

/-- The characters of a text from one byte up to another. -/
def slice (cs : List Char) (first last : Nat) : List Char :=
  let rec go : List Char → Nat → List Char
    | [], _ => []
    | c :: rest, i =>
      if i < first then go rest (i + c.utf8Size)
      else if i < last then c :: go rest (i + c.utf8Size)
      else []
  go cs 0

/-- One step of reading: the character at a byte. The parts of a directive are cut out of the
text `cs`. -/
def step (cs : List Char) (i : Nat) (c : Char) (stage : Stage) (d : Directive) :
    Except FilterError (Stage × Directive) :=
  match stage with
  | .start =>
    if c = '[' then .ok (.span (i + 1), d)
    else if c = '-' ∨ c = ':' ∨ c = '_' ∨ Text.isAlphanumeric c then .ok (.levelOrTarget i, d)
    else .error .malformed
  | .levelOrTarget first =>
    let d' := { d with target := some (String.ofList (slice cs first i)) }
    if c = '=' then .ok (.level (i + 1), d')
    else if c = '[' then .ok (.span (i + 1), d')
    else .ok (stage, d)
  | .span first =>
    let name := slice cs first i
    if c = ']' then .ok (.target, { d with span := some (String.ofList name) })
    else if c = '\x7b' then
      .ok (.field (i + 1), { d with span := if name.isEmpty then none else some (String.ofList name) })
    else .ok (stage, d)
  | .field first =>
    if c = '\x7d' then
      let f := slice cs first i
      if f.isEmpty then .error .malformed
      else
        match FieldMatch.ofText f with
        | .ok f => .ok (.fields, { d with field := some f })
        | .error e => .error (.pattern e)
    else .ok (stage, d)
  | .fields => if c = ']' then .ok (.target, d) else .error .malformed
  | .target => if c = '=' then .ok (.level (i + 1), d) else .error .malformed
  | .level _ => .ok (stage, d)

/-- All steps of reading, from a byte on. -/
def steps (cs : List Char) : List Char → Nat → Stage → Directive →
    Except FilterError (Stage × Directive)
  | [], _, stage, d => .ok (stage, d)
  | c :: rest, i, stage, d =>
    match step cs i c stage d with
    | .ok (stage, d) => steps cs rest (i + c.utf8Size) stage d
    | .error e => .error e

/-- Reads a directive. Blanks around it are passed over when its parts are told apart, but the
parts are cut out of the whole text. -/
def ofText (s : String) : Except FilterError Directive := do
  let cs := s.toList
  let behind (first : Nat) : String := String.ofList (slice cs first s.utf8ByteSize)
  match ← steps cs (Text.trim s).toList 0 .start (.all (.upTo .trace)) with
  | (.levelOrTarget first, d) =>
    match Threshold.ofText? (behind first) with
    | some t => pure { d with threshold := t }
    | none => pure { d with target := some (behind first) }
  | (.level first, d) =>
    if (behind first).isEmpty then pure d
    else
      match Threshold.ofText? (behind first) with
      | some t => pure { d with threshold := t }
      | none => .error .unknownLevel
  | (.target, d) => pure d
  | _ => .error .malformed

end Directive

end ScriptedActions.Logging
