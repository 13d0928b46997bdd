/-!
# Names of agents and actions

Names become parts of paths, so they are made of a small set of characters and are not long.
`check` says which rule a name breaks first.
-/

set_option autoImplicit false

namespace ScriptedActions

/-- Why a name is refused. -/
inductive NameError where
  | empty
  /-- The name takes so many bytes. -/
  | tooLong (length : Nat)
  /-- The first character that no name may contain. -/
  | invalidCharacter (name : String) (character : Char)
deriving DecidableEq, Repr, Inhabited

namespace Naming

/-- The greatest length of a name, in bytes. -/
def maxLength : Nat := 64

/-- Whether names may contain a character: letters, digits, `_` and `-`, of ASCII only. -/
def isAllowed (c : Char) : Bool := c.isAlphanum || c == '_' || c == '-'

/-- Checks a name: that there is one, that it is not too long, and its characters. -/
def check (name : String) : Except NameError Unit :=
  if name.isEmpty then .error .empty
  else if maxLength < name.utf8ByteSize then .error (.tooLong name.utf8ByteSize)
  else
    match name.toList.find? fun c => !isAllowed c with
    | some c => .error (.invalidCharacter name c)
    | none => .ok ()

end Naming

/-- The wording of a refusal. -/
def NameError.message : NameError → String
  | empty => "name cannot be empty"
  | tooLong n =>
    "name is " ++ toString n ++ " characters long (max " ++ toString Naming.maxLength ++ ")"
  | invalidCharacter name c =>
    "name '" ++ name ++ "' contains invalid character '" ++ c.toString ++
      "'; only ASCII letters, digits, '_' and '-' are allowed"

end ScriptedActions
