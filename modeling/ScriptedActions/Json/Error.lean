/-!
# Errors of reading JSON

What can be wrong with a text or a value that should be read, and where. A `Cause` is a fault
of the text itself or a mismatch with what the reader of a type expected; a place is a line and
a column, both counted from one, where a column is the number of bytes of the line that were
read.
-/

set_option autoImplicit false

namespace ScriptedActions.Json

/-- A line and a column of a text. -/
structure Place where
  line : Nat
  column : Nat
deriving DecidableEq, Repr

/-- What is wrong with a text. -/
inductive Cause where
  | listEnds
  | objectEnds
  | stringEnds
  | valueEnds
  | expectedColon
  | expectedListComma
  | expectedObjectComma
  | expectedIdent
  | expectedValue
  | invalidEscape
  | invalidNumber
  | numberOutOfRange
  | controlCharacter
  | keyNotString
  | loneSurrogate
  | trailingComma
  | trailingCharacters
  | unfinishedEscape
  | tooDeep
  /-- A value of the text does not fit what is read from it. -/
  | mismatch (reason : String)
deriving DecidableEq, Repr

/-- The wording of a cause. -/
def Cause.message : Cause → String
  | listEnds => "EOF while parsing a list"
  | objectEnds => "EOF while parsing an object"
  | stringEnds => "EOF while parsing a string"
  | valueEnds => "EOF while parsing a value"
  | expectedColon => "expected `:`"
  | expectedListComma => "expected `,` or `]`"
  | expectedObjectComma => "expected `,` or `\x7d`"
  | expectedIdent => "expected ident"
  | expectedValue => "expected value"
  | invalidEscape => "invalid escape"
  | invalidNumber => "invalid number"
  | numberOutOfRange => "number out of range"
  | controlCharacter => "control character (\\u0000-\\u001F) found while parsing a string"
  | keyNotString => "key must be a string"
  | loneSurrogate => "lone leading surrogate in hex escape"
  | trailingComma => "trailing comma"
  | trailingCharacters => "trailing characters"
  | unfinishedEscape => "unexpected end of hex escape"
  | tooDeep => "recursion limit exceeded"
  | mismatch reason => reason

/-- A failed reading. A mismatch has no place when what was read is a value and not a text. -/
structure Error where
  cause : Cause
  place : Option Place
deriving DecidableEq, Repr

/-- The wording of an error. -/
def Error.message (e : Error) : String :=
  match e.place with
  | some p => e.cause.message ++ " at line " ++ toString p.line ++ " column " ++ toString p.column
  | none => e.cause.message

/-- A mismatch whose place is not known yet. -/
def Error.mismatch (reason : String) : Error := ⟨.mismatch reason, none⟩

end ScriptedActions.Json
