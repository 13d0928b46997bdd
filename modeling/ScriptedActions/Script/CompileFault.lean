import ScriptedActions.Script.Token

/-!
# Faults of compiling

Why a script is refused before it runs, and the wording of each reason.
-/

set_option autoImplicit false

namespace ScriptedActions.Script

/-- Why a script does not compile. -/
inductive CompileFault where
  | word (fault : WordFault)
  | unexpected (spelling : String)
  | incomplete
  | unknownOperator (op : String)
  | reserved (word : String)
  /-- A token that must come next, and what for. -/
  | missing (token purpose : String)
  | badArguments (advice : String)
  | badIndex (advice : String)
  | badCapture (advice : String)
  | duplicateProperty (name : String)
  | duplicateVariable (name : String)
  | numberAfterRange
  | defaultNotLast
  | defaultWithCondition
  | propertyExpected
  | variableExpected
  | nestedFunction
  | functionUnnamed
  | parametersMissing (function : String)
  | duplicateParameter (function param : String)
  | bodyMissing (function : String)
  | duplicateFunction (function : String) (params : Nat)
  | nestedExport
  | expressionExpected (kind : String)
  | wrongType (wanted actual : String)
  | tooDeep
  | literalTooLarge (kind : String) (limit : Nat)
  | constantAssigned (name : String)
  | notAssignable
  | strayBreak
deriving DecidableEq, Repr, Inhabited

/-- The wording of a faulty word. -/
def WordFault.message : WordFault → String
  | unexpected s => "Unexpected '" ++ s ++ "'"
  | openString => "Open string is not terminated"
  | longString limit => "Length of string exceeds the maximum limit (" ++ toString limit ++ ")"
  | badEscape s => "Invalid escape sequence: '" ++ s ++ "'"
  | badNumber s => "Invalid number: '" ++ s ++ "'"
  | badChar s => "Invalid character: '" ++ s ++ "'"
  | badName s => "Variable name is not proper: '" ++ s ++ "'"
  | improper advice => advice

/-- The wording of a fault. -/
def CompileFault.message : CompileFault → String
  | word f => f.message
  | unexpected s => "Unexpected '" ++ s ++ "'"
  | incomplete => "Script is incomplete"
  | unknownOperator op => "Unknown operator: '" ++ op ++ "'"
  | reserved w => "'" ++ w ++ "' is a reserved " ++ if isName w then "keyword" else "symbol"
  | missing t purpose => "Expecting '" ++ t ++ "' " ++ purpose
  | badArguments a => if a.isEmpty then "Invalid expression in function call arguments" else a
  | badIndex a => if a.isEmpty then "Invalid index in indexing expression" else a
  | badCapture a => if a.isEmpty then "Invalid capturing" else a
  | duplicateProperty n => "Duplicated property for object map literal: " ++ n
  | duplicateVariable n => "Duplicated variable name: " ++ n
  | numberAfterRange => "Numeric switch case cannot follow a range case"
  | defaultNotLast => "Default switch case must be the last"
  | defaultWithCondition => "This switch case cannot have a condition"
  | propertyExpected => "Expecting name of a property"
  | variableExpected => "Expecting name of a variable"
  | nestedFunction =>
    "Function definitions must be at global level and cannot be inside a block or another function"
  | functionUnnamed => "Expecting function name in function declaration"
  | parametersMissing f => "Expecting parameters for function " ++ f
  | duplicateParameter f p =>
    if f.isEmpty then "Duplicated parameter " ++ p ++ " for anonymous function"
    else "Duplicated parameter " ++ p ++ " for function " ++ f
  | bodyMissing f =>
    if f.isEmpty then "Expecting body statement block for anonymous function"
    else "Expecting body statement block for function " ++ f
  | duplicateFunction f n =>
    "Function " ++ f ++ " with " ++
      (if n = 0 then "no parameters" else if n = 1 then "1 parameter"
        else toString n ++ " parameters") ++ " already exists"
  | nestedExport => "Export statement can only appear at global level"
  | expressionExpected kind => "Expecting " ++ kind ++ " expression"
  | wrongType wanted actual => "Expecting " ++ wanted ++ ", not " ++ actual
  | tooDeep => "Expression exceeds maximum complexity"
  | literalTooLarge kind limit => kind ++ " exceeds the maximum limit (" ++ toString limit ++ ")"
  | constantAssigned n =>
    if n.isEmpty then "Cannot assign to a constant value" else "Cannot assign to constant " ++ n
  | notAssignable => "Expression cannot be assigned to"
  | strayBreak => "Break statement should only be used inside a loop"

/-- A fault and its place. -/
structure CompileError where
  fault : CompileFault
  place : Place
deriving DecidableEq, Repr, Inhabited

/-- The diagnostic of a script that does not compile. -/
def CompileError.message (e : CompileError) : String := e.place.suffix e.fault.message

end ScriptedActions.Script
