import ScriptedActions.Script.Fault

/-!
# Caught faults

What a script gets when it catches a fault: the value that was thrown, or an object map that
describes the fault.
-/

set_option autoImplicit false

namespace ScriptedActions.Script

/-- The name of a cause for scripts. -/
def Cause.name : Cause → String
  | compile _ => "ErrorParsing"
  | variableNotFound _ => "ErrorVariableNotFound"
  | functionNotFound _ => "ErrorFunctionNotFound"
  | moduleNotFound _ => "ErrorModuleNotFound"
  | unboundThis => "ErrorUnboundThis"
  | wrongType _ _ => "ErrorMismatchDataType"
  | wrongResult _ _ => "ErrorMismatchOutputType"
  | noIndexer _ => "ErrorIndexingType"
  | arrayBounds _ _ => "ErrorArrayBounds"
  | textBounds _ _ => "ErrorStringBounds"
  | bitBounds _ => "ErrorBitFieldBounds"
  | notIterable => "ErrorFor"
  | dataRace _ => "ErrorDataRace"
  | constantModified _ => "ErrorAssignmentToConstant"
  | constantMethod _ => "ErrorNonPureMethodCallOnConstant"
  | badProperty _ => "ErrorDotExpr"
  | arithmetic _ => "ErrorArithmetic"
  | tooManyOperations => "ErrorTooManyOperations"
  | tooManyModules => "ErrorTooManyModules"
  | stackOverflow => "ErrorStackOverflow"
  | dataTooLarge _ => "ErrorDataTooLarge"
  | exhausted => "ErrorTerminated"
  | raised _ => "ErrorRuntime"

/-- The details of a cause for scripts. -/
def Cause.details : Cause → List (String × Value)
  | variableNotFound n | dataRace n | constantModified n => [("variable", .text n)]
  | functionNotFound s | constantMethod s => [("function", .text s)]
  | moduleNotFound p => [("module", .text p)]
  | wrongType actual wanted | wrongResult actual wanted =>
    [("actual", .text actual), ("requested", .text wanted)]
  | noIndexer t => [("type", .text t)]
  | arrayBounds n i | textBounds n i =>
    [("index", .int (Int64.ofInt i)), ("length", .int (Int64.ofNat n))]
  | bitBounds i => [("index", .int (Int64.ofInt i)), ("length", .int 64)]
  | badProperty p => [("property", .text p)]
  | raised v => [("value", v)]
  | _ => []

namespace Fault

/-- The name of a fault for scripts. -/
def name : Fault → String
  | here c _ => c.name
  | terminated _ => "ErrorTerminated"
  | inCall _ _ _ _ => "ErrorInFunctionCall"
  | inModule _ _ _ => "ErrorInModule"

/-- The details of a fault for scripts. -/
def details : Fault → List (String × Value)
  | here c _ => c.details
  | terminated _ => []
  | inCall f s _ _ => [("function", .text f), ("source", .text s)]
  | inModule m _ _ => [("module", .text m)]

/-- What a script gets that catches a fault while a module, or none, runs. -/
def caught (source : String) (f : Fault) : Value :=
  match f.root? with
  | some (.raised v) => v
  | _ =>
    let origin : List (String × Value) :=
      if source.isEmpty then [] else [("source", .text source)]
    let place : List (String × Value) :=
      if f.place.isNone then []
      else [("line", .int (Int64.ofNat f.place.line)),
        ("position", .int (Int64.ofNat f.place.column))]
    let message := (f.at_ .none).message
    .map (Table.ofList ([("message", .text message), ("error", .text f.name)] ++ origin ++ place ++
      f.details))

end Fault

end ScriptedActions.Script
