import ScriptedActions.Script.CompileFault
import ScriptedActions.Script.Display

/-!
# Faults of running

Why a running script stops, and the wording. A fault inside a function or a module is wrapped in
where it was called from, so a fault carries the way it took. A script can catch a fault unless
it says that the run as a whole has used up what it may use, or was interrupted.
-/

set_option autoImplicit false

namespace ScriptedActions.Script

/-- What went wrong. -/
inductive Cause where
  /-- A script that was to be evaluated does not compile. -/
  | compile (fault : CompileFault)
  | variableNotFound (name : String)
  | functionNotFound (signature : String)
  | moduleNotFound (path : String)
  | unboundThis
  | wrongType (actual wanted : String)
  | wrongResult (actual wanted : String)
  | noIndexer (access : String)
  | arrayBounds (size : Nat) (index : Int)
  | textBounds (size : Nat) (index : Int)
  | bitBounds (index : Int)
  | notIterable
  | dataRace (name : String)
  | constantModified (name : String)
  | constantMethod (name : String)
  /-- A property that cannot be read or written. -/
  | badProperty (reason : String)
  | arithmetic (reason : String)
  | tooManyOperations
  | tooManyModules
  | stackOverflow
  | dataTooLarge (kind : String)
  /-- The run needs more rounds or a deeper nesting than it is given. -/
  | exhausted
  /-- A value that was thrown. -/
  | raised (v : Value)

/-- The wording of a cause. -/
def Cause.message : Cause → String
  | compile f => "Syntax error: " ++ f.message
  | variableNotFound n => "Variable not found: " ++ n
  | functionNotFound s => "Function not found: " ++ s
  | moduleNotFound p => "Module not found: " ++ p
  | unboundThis => "'this' not bound"
  | wrongType actual wanted =>
    if actual.isEmpty then "Data type incorrect, expecting " ++ wanted
    else if wanted.isEmpty then "Data type incorrect: " ++ actual
    else "Data type incorrect: " ++ actual ++ " (expecting " ++ wanted ++ ")"
  | wrongResult actual wanted =>
    if actual.isEmpty then "Output type incorrect, expecting " ++ wanted
    else if wanted.isEmpty then "Output type incorrect: " ++ actual
    else "Output type incorrect: " ++ actual ++ " (expecting " ++ wanted ++ ")"
  | noIndexer a => "Indexer unavailable: " ++ a
  | arrayBounds n i =>
    "Array index " ++ toString i ++ " out of bounds: " ++
      (if n = 0 then "array is empty" else if n = 1 then "only 1 element in array"
        else "only " ++ toString n ++ " elements in array")
  | textBounds n i =>
    "String index " ++ toString i ++ " out of bounds: " ++
      (if n = 0 then "string is empty" else if n = 1 then "only 1 character in string"
        else "only " ++ toString n ++ " characters in string")
  | bitBounds i =>
    "Bit-field index " ++ toString i ++ " out of bounds: only 64 bits in bit-field"
  | notIterable => "For loop expects iterable type"
  | dataRace n => "Data race detected when accessing variable " ++ n
  | constantModified n => "Cannot modify constant " ++ n
  | constantMethod n => "Non-pure method '" ++ n ++ "' cannot be called on constant"
  | badProperty reason => reason
  | arithmetic reason => reason
  | tooManyOperations => "Too many operations"
  | tooManyModules => "Too many modules imported"
  | stackOverflow => "Stack overflow"
  | dataTooLarge kind => kind ++ " too large"
  | exhausted => "Script does not end"
  | raised v =>
    match v with
    | .unit | .text "" => "Runtime error"
    | v => "Runtime error: " ++ v.display

/-- A fault and the way it took. -/
inductive Fault where
  | here (cause : Cause) (p : Place)
  /-- Nothing went wrong: the run was told to stop. -/
  | terminated (p : Place)
  /-- A fault inside a function; `source` is the module of the function, if it has one. -/
  | inCall (function source : String) (inner : Fault) (p : Place)
  | inModule (path : String) (inner : Fault) (p : Place)

namespace Fault

/-- What went wrong in the first place; nothing did if the run was told to stop. -/
def root? : Fault → Option Cause
  | here c _ => some c
  | terminated _ => none
  | inCall _ _ inner _ => inner.root?
  | inModule _ inner _ => inner.root?

/-- The place of the outermost part. -/
def place : Fault → Place
  | here _ p | terminated p | inCall _ _ _ p | inModule _ _ p => p

/-- The fault at another place. -/
def at_ (q : Place) : Fault → Fault
  | here c _ => here c q
  | terminated _ => terminated q
  | inCall f s i _ => inCall f s i q
  | inModule m i _ => inModule m i q

/-- The fault with a place, if it has none. -/
def orAt (q : Place) (f : Fault) : Fault := if f.place.isNone then f.at_ q else f

/-- The wording of a fault; `source` names the module that the function at fault comes from. -/
def messageFrom (source : String) : Fault → String
  | here c p => p.suffix (c.message ++ origin)
  | terminated p => p.suffix ("Script terminated" ++ origin)
  | inCall f s inner p =>
    p.suffix (inner.messageFrom s ++ "\nin call to " ++
      (if f.isEmpty then "closure" else "function '" ++ f ++ "'") ++
      if s.isEmpty then "" else " (from '" ++ s ++ "')")
  | inModule m inner p =>
    p.suffix (inner.messageFrom "" ++
      if m.isEmpty then "\nin module" else "\nin module '" ++ m ++ "'")
where
  /-- The module that the function at fault comes from, if it has one. -/
  origin : String := if source.isEmpty then "" else " @ '" ++ source ++ "'"

/-- The diagnostic of a fault. -/
def message (f : Fault) : String := f.messageFrom ""

/-- Whether a fault ends the run whatever the script does. -/
def isFatal (f : Fault) : Bool :=
  match f with
  | here c _ =>
    match c with
    | .compile _ | .tooManyOperations | .tooManyModules | .stackOverflow | .dataTooLarge _
    | .exhausted => true
    | _ => false
  | terminated _ => true
  | _ => false

end Fault

end ScriptedActions.Script
