import ScriptedActions.Script.Library.Callbacks
import ScriptedActions.Script.Library.General
import ScriptedActions.Script.Parser

/-!
# Calls

How functions are found and run. A name with a number of arguments means a function of the script
or module first, the nearest one, and a native function otherwise. The first argument of a call
that may be changed in place is in focus.

A function runs with variables of its own and gives back the value of its last statement or that
of a `return`. A fault inside is wrapped in the call, except for those that end the run whatever
the script does: these only move to the place of the call.

Everything here takes `go`, which evaluates what is nested one level deeper.
-/

set_option autoImplicit false

namespace ScriptedActions.Script

/-- What there is to evaluate. -/
inductive Code where
  | expr (e : Expr)
  | stmt (s : Stmt)
  /-- A call of a function value; as a method it is about what is in focus. -/
  | call (f : Value) (isMethod : Bool) (args : List Value) (p : Place)

/-- Evaluates what is nested one level deeper. -/
abbrev Go := Code → Eval Value

variable (go : Go)

/-- The value of the last one of some statements. -/
def runAll : List Stmt → Eval Value
  | [] => pure .unit
  | [s] => go (.stmt s)
  | s :: rest => do
    let _ ← go (.stmt s)
    runAll rest

/-- The value of a block, whose variables and modules are forgotten at its end. -/
def runBlock (body : List Stmt) : Eval Value :=
  if body.isEmpty then pure .unit else Eval.inside (Eval.withImports (runAll go body))

/-- Runs a function: in variables of its own, or among those of the caller. -/
def runFunction (f : Function) (home : Home) (source : String) (args : List Value)
    (amongOthers : Bool) (p : Place) : Eval Value := do
  Eval.tick p
  let s ← Eval.surroundings
  if s.limits.maxCallLevels < s.level then Eval.fault .stackOverflow p
  else
    let homes := if s.homes.head?.any (·.source == home.source) then s.homes else home :: s.homes
    let params := f.params.zip args
    let body := Eval.under (fun s => { s with level := s.level + 1, homes := homes, source := source })
      (runBlock go f.body)
    Eval.returned <|
      Eval.mapFault (fun e => if e.isFatal then e.at_ p else .inCall f.name home.source e p) <|
        if amongOthers then Eval.inside do
          params.forM fun (n, v) => Eval.declare n false v
          body
        else Eval.withScope (params.map fun (n, v) => ⟨n, false, [], v⟩).toArray body

/-- The nearest function with a name and a number of parameters. -/
def lookUp (name : String) (arity : Nat) : List Home → Option (Function × Home)
  | [] => none
  | h :: rest =>
    match h.functions.find? fun f => f.name == name && f.params.length == arity with
    | some f => some (f, h)
    | none => lookUp name arity rest

/-- Calls a function about a value. The result comes with what becomes of the value. -/
def callAbout (f v : Value) (args : List Value) : Eval (Value × Value) :=
  Eval.aboutValue v (go (.call f true args .none))

/-- Calls a function about nothing. The result comes with a value that the call leaves alone. -/
def callBeside (f v : Value) (args : List Value) : Eval (Value × Value) := do
  pure (← Eval.aboutNothing (go (.call f false args .none)), v)

/-- The call that suits a function with a number of parameters. An item goes behind the name of an
entry and in front of everything else. -/
def suitableCall? (f : Value) (subject : Library.Subject) (args extras : List Value)
    (arity : Nat) : Option (Eval (Value × Value)) :=
  let all := args ++ extras
  match subject with
  | .item v =>
    if arity = args.length then some (callAbout go f v args)
    else if arity = args.length + 1 then some (callBeside go f v (args ++ [v]))
    else if arity = all.length + 1 then some (callBeside go f v (args ++ v :: extras))
    else if arity = all.length then some (callAbout go f v all)
    else none
  | .this v =>
    if arity = args.length then some (callAbout go f v args)
    else if arity = all.length then some (callAbout go f v all)
    else none
  | .nothing =>
    if arity = args.length then some (callBeside go f .unit args)
    else if arity = all.length then some (callBeside go f .unit all)
    else none

/-- The calls to try of a function whose parameters are not known. -/
def possibleCalls (f : Value) (subject : Library.Subject) (args extras : List Value) :
    List (Eval (Value × Value)) :=
  match subject with
  | .item v => [callAbout go f v args, callBeside go f v (args ++ [v]),
      callBeside go f v (args ++ v :: extras)]
  | .this v => [callAbout go f v args, callAbout go f v (args ++ extras)]
  | .nothing => [callBeside go f .unit args, callBeside go f .unit (args ++ extras)]

/-- Whether a fault says that there is no function with a name. -/
def isMissing (name : String) (f : Fault) : Option Unit :=
  match f with
  | .here (.functionNotFound s) _ => if s.startsWith name then some () else none
  | _ => none

/-- The first of some calls for which there is a function with the name. -/
def firstFound (name : String) : List (Eval (Value × Value)) → Eval (Value × Value)
  | [] => Eval.fault (.functionNotFound name) .none
  | [e] => e
  | e :: rest => do
    match ← e.catching (isMissing name) with
    | .ok r => pure r
    | .error () => firstFound name rest

/-- Calls a function of the script for a native function. -/
def invoke : Library.Invoke := fun name f subject args extras =>
  let byName (fname : String) : Eval (Value × Value) := do
    let s ← Eval.surroundings
    (firstFound fname (possibleCalls go f subject args extras)).mapFault fun e =>
      if e.isFatal then e else .inCall name s.source e .none
  let run : Eval (Value × Value) :=
    match f with
    | .fn fname (some b) _ curried =>
      (suitableCall? go f subject args extras (b.params.length - curried.length)).getD (byName fname)
    | .fn fname none _ _ => byName fname
    | _ => Eval.fault (.functionNotFound name) .none
  Eval.uncounted (Eval.under (fun s => { s with level := s.level + 1 }) run)

/-- Evaluates JSON text, which must be an object, as a script would. -/
def readJson (s : String) : Eval Value := do
  let limits := (← Eval.surroundings).limits
  match Program.parseJson limits s with
  | .error e => Eval.fault (.compile e.fault) e.place
  | .ok e =>
    match ← Eval.withScope #[] (Eval.aboutNothing (go (.expr e))) with
    | .map entries => pure (.map entries)
    | v => Eval.fault (.wrongResult v.rawType "map") .none

/-- Writes a line to the log. -/
def writeLine (forDebugging : Bool) (text : String) (p : Place) : Eval Value := do
  Eval.print forDebugging text p
  pure .unit

/-- The text that a function for texts gives, a function of the script first. -/
def describe (name : String) (v : Value) : Eval String := do
  let render ← Eval.renderer
  pure (if name == "debug" then v.toDebug render else v.toText render)

/-- The native function with a name for some arguments. -/
def native? (limits : Limits) (render : Nat → String) (home : Home) (name : String)
    (args : List Value) (p : Place) : Option Native :=
  match name, args with
  | "type_of", [v] => some (.computes (.value (.ok (.text v.typeName))))
  | "print", [] => some (.act false (writeLine false "" p))
  | "debug", [] => some (.act false (writeLine true "" p))
  | "print", [v] => some (.act false do writeLine false (← describe name v) p)
  | "debug", [v] => some (.act false do writeLine true (← describe name v) p)
  | "parse_json", [.text s] => some (.act false (readJson go s))
  | _, _ =>
    match Library.callbacks? (invoke go) (fun s => .fn s none home []) name args with
    | some n => some n
    | none =>
      match Library.find? limits render name args with
      | some n => some n
      | none =>
        (match args with
          | [a] => Operator.unary name a
          | [a, b] => Operator.binary render name a b
          | _ => none).map fun r => .computes (.value r)

/-- Runs a native function on what is in focus. -/
def runNative (n : Native) (name : String) (p : Place) : Eval Value := do
  let constant := (← Eval.focus?).any (·.constant)
  if n.mutates && constant then Eval.fault (.constantMethod name) p
  else match n with
    | .computes (.value r) | .computes (.view r) => Eval.ofExcept r p
    | .computes (.update r) => do
      let (v, first) ← Eval.ofExcept r p
      Eval.refocus first
      pure v
    | .act _ run => run.orAt p

/-- Calls a native function. Its first argument is in focus; `byReference` tells that it is a
variable or a part of one. The result comes with whether the function took it in place. -/
def callNative (name : String) (args : List Value) (byReference : Bool) (p : Place) :
    Eval (Value × Bool) := do
  Eval.tick p
  let s ← Eval.surroundings
  match native? go s.limits (← Eval.renderer) (s.homes.headD default) name args p with
  | some n =>
    let v ← runNative n name p
    Eval.checkSize v p
    if byReference && n.inPlace then Eval.checkSize (← Eval.focused) p
    pure (v, n.inPlace)
  | none => Eval.fault (.functionNotFound (signature name args)) p

/-- Calls the function with a name. The first argument is in focus; in a call as a method it is
what the function is about. -/
def callNamed (name : String) (args : List Value) (byReference isMethod : Bool) (p : Place) :
    Eval (Value × Bool) := do
  let homes := (← Eval.surroundings).homes
  match lookUp name (if isMethod then args.length - 1 else args.length) homes with
  | some (f, home) =>
    if f.body.isEmpty then pure (.unit, false)
    else if isMethod then
      pure (← runFunction go f home home.source (args.drop 1) false p, false)
    else
      pure (← Eval.aboutNothing (runFunction go f home home.source args false p), false)
  | none => callNative go name args byReference p

/-- Calls the function with a name on values that belong to nothing. -/
def callOn (name : String) (args : List Value) (p : Place) : Eval Value :=
  match args with
  | [] => Eval.aboutNothing do pure (← callNamed go name [] false false p).1
  | a :: _ => do pure (← Eval.aboutValue a (callNamed go name args false false p)).1.1

/-- Calls a function value. -/
def callValue (f : Value) (isMethod : Bool) (args : List Value) (p : Place) : Eval Value := do
  match f with
  | .fn name body home curried =>
    let args := curried ++ args
    let byName : Eval Value :=
      if isMethod then do
        let first ← Eval.focused
        pure (← callNamed go name (first :: args) true true p).1
      else callOn go name args p
    match body with
    | some b =>
      if b.params.length = args.length then
        let run := runFunction go b home (← Eval.surroundings).source args false p
        if isMethod then run else Eval.aboutNothing run
      else byName
    | none => byName
  | v => Eval.fault (.wrongType v.typeName "Fn") p

end ScriptedActions.Script
