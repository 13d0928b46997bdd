import ScriptedActions.Script.Caught
import ScriptedActions.Script.Chain
import ScriptedActions.Script.Iteration
import ScriptedActions.Script.Simplify

/-!
# The interpreter

The meaning of expressions and statements. `step go` evaluates a piece of code whose parts are
evaluated by `go`; `interpret n` evaluates code that is nested at most `n` levels deep. Loops are
not nested: they go on for as many rounds as the surroundings allow.

Every expression and every statement counts as an operation before anything else happens.
-/

set_option autoImplicit false

namespace ScriptedActions.Script

variable (go : Go)

/-- A truth value, or the fault that the value is none. -/
def asBool (v : Value) (p : Place) : Eval Bool :=
  match v with
  | .bool b => pure b
  | v => Eval.fault (.wrongType v.rawType "bool") p

/-- The truth value of a condition. -/
def evalTest (e : Expr) : Eval Bool := do asBool (← evalArg go e) e.place

/-- A text, or the fault that the value is none. -/
def asText (v : Value) (p : Place) : Eval String :=
  match v with
  | .text s => pure s
  | v => Eval.fault (.wrongType v.rawType "string") p

/-! ## Modules -/

/-- The module that a path of names means. -/
def findModule (modules : List (String × Module)) : List Name → Option Module
  | [] => none
  | [n] => (modules.find? (·.1 == n.text)).map Prod.snd
  | n :: rest =>
    match (modules.find? (·.1 == n.text)).map Prod.snd with
    | some (.mk _ _ parts) => findModule parts rest
    | none => none

/-- The names of a path. -/
def pathText (path : List Name) : String := String.intercalate "::" (path.map (·.text))

/-- Where a path starts. -/
def pathPlace (path : List Name) : Place := path.head?.elim .none (·.place)

/-- The value of a variable of a module. -/
def evalMember (path : List Name) (name : String) : Eval Value := do
  let unknown : Eval Value :=
    Eval.fault (.variableNotFound (pathText path ++ "::" ++ name)) (pathPlace path)
  match findModule (← Eval.imports) path with
  | some (.mk _ declared _) =>
    match declared.find? (·.1 == name) with
    | some (_, v) => Eval.contents v
    | none => unknown
  | none =>
    if pathText path == "global" then
      match ← Eval.constant? name with
      | some v => pure v
      | none => unknown
    else Eval.fault (.moduleNotFound (pathText path)) (pathPlace path)

/-- Calls a function of a module. -/
def evalMemberCall (path : List Name) (name : String) (args : List Expr) (p : Place) :
    Eval Value := do
  let vs ← evalArgs go args
  match findModule (← Eval.imports) path with
  | some (.mk home _ parts) =>
    match home.functions.find? fun f =>
      !f.isPrivate && f.name == name && f.params.length == vs.length with
    | some f =>
      Eval.withImports do
        Eval.setImports (parts ++ (← Eval.imports))
        Eval.aboutNothing (runFunction go f home home.source vs false p)
    | none => Eval.fault (.functionNotFound (signature (pathText path ++ "::" ++ name) vs)) p
  | none => Eval.fault (.moduleNotFound (pathText path)) (pathPlace path)

/-- The extension of the files of scripts. -/
def fileExtension : String := "rhai"

/-- The file of a module. A relative path starts at the directory of the module that uses it. -/
def moduleFile (source path : String) : Path :=
  (((Path.mk source).directory?.getD ⟨""⟩).join path).withExtension fileExtension

/-- The script in a text: a first line that names an interpreter is left out. -/
def withoutInterpreter (text : String) : String :=
  match text.toList with
  | '#' :: '!' :: cs => String.ofList (cs.dropWhile (· != '\n'))
  | _ => text

/-- Reads a module and runs it among the variables of the script that uses it. -/
def loadModule (path : String) (p : Place) : Eval Module := do
  let s ← Eval.surroundings
  let file := moduleFile s.source path
  match ← Eval.loaded? file with
  | some m => pure m
  | none =>
    match s.moduleText file with
    | none => Eval.fault (.moduleNotFound path) p
    | some text =>
      match Program.parse s.limits (withoutInterpreter text) with
      | .error e => Eval.mapFault (.inModule path · p) (Eval.fault (.compile e.fault) e.place)
      | .ok program =>
        let program := program.simplified s.limits
        let home : Home := ⟨path, program.functions⟩
        let n ← Eval.scopeSize
        let outer ← Eval.imports
        let m ← Eval.mapFault (.inModule path · p) <| Eval.inside <| Eval.withImports do
          let _ ← Eval.returned <| Eval.under (fun s => { s with homes := [home], source := path }) <|
            Eval.aboutNothing (runAll go program.body)
          let inner ← Eval.imports
          pure (Module.mk home (← Eval.offered n) (inner.take (inner.length - outer.length)))
        Eval.remember file m
        pure m

/-! ## Calls by name -/

/-- Evaluates a text as a script among the variables of the caller. -/
def evalText (s : String) (p : Place) : Eval Value := do
  let limits := (← Eval.surroundings).limits
  let run : Eval Value :=
    match Program.parse limits (Text.trim s) with
    | .error e => Eval.fault (.compile e.fault) e.place
    | .ok program =>
      if !program.functions.isEmpty then Eval.fault (.compile .nestedFunction) .none
      else Eval.aboutNothing (runAll go program.body)
  let source := (← Eval.surroundings).source
  Eval.returned <| Eval.mapFault (.inCall "eval" source · p) <|
    Eval.under (fun s => { s with level := s.level + 1 }) run

/-- A function by its name. -/
def functionNamed (name : String) (p : Place) : Eval Value := do
  if isName name || (Parse.precedence name != 0) || name == "!" then
    pure (.fn name none ((← Eval.surroundings).homes.headD default) [])
  else Eval.fault (.functionNotFound name) p

/-- A call of an ordinary function. A variable as the first argument can be changed in place. -/
def evalPlainCall (name : String) (args : List Expr) (captures : Bool) (p : Place) :
    Eval Value := do
  let onValues : Eval Value := do callOn go name (← evalArgs go args) p
  if captures then
    let vs ← evalArgs go args
    match lookUp name vs.length (← Eval.surroundings).homes with
    | some (f, home) =>
      if f.body.isEmpty then pure .unit
      else Eval.aboutNothing (runFunction go f home home.source vs true p)
    | none => callOn go name vs p
  else match args with
    | .var first q :: rest => do
      let vs ← evalArgs go rest
      Eval.tick q
      match ← Eval.find? first with
      | none => Eval.fault (.variableNotFound first) q
      | some i =>
        match ← Eval.variableAt? i with
        | some ⟨_, false, _, .shared c⟩ | some ⟨_, true, _, .shared c⟩ =>
          callOn go name ((← Eval.contents (.shared c)) :: vs) p
        | some ⟨_, true, _, v⟩ => callOn go name (v :: vs) p
        | some ⟨_, false, _, v⟩ => do
          pure (← Eval.aboutVariable i (callNamed go name (v :: vs) true false p)).1
        | none => pure .unit
    | .this q :: rest => do
      let vs ← evalArgs go rest
      Eval.tick q
      match ← Eval.focus? with
      | none => Eval.fault .unboundThis q
      | some t => do pure (← callNamed go name (t.value :: vs) true false p).1
    | _ => onValues

/-- A call by name. Some names are no functions: they look at the call itself. -/
def evalCall (name : String) (args : List Expr) (captures : Bool) (p : Place) : Eval Value := do
  match name, args with
  | "call", f :: rest => do
    let v ← evalArg go f
    match v with
    | .fn fname none _ [] => evalPlainCall go fname rest false p
    | .fn _ _ _ _ => do callValue go v false (← evalArgs go rest) p
    | v => Eval.fault (.wrongType v.typeName "Fn") f.start
  | "Fn", [e] => do functionNamed (← asText (← evalArg go e) e.start) e.start
  | "curry", f :: e :: rest => do
    match ← evalArg go f with
    | .fn n b h c => do pure (.fn n b h (c ++ (← evalArgs go (e :: rest))))
    | v => Eval.fault (.wrongType v.typeName "Fn") f.start
  | "is_shared", [e] =>
    match e with
    | .var x q => do
      Eval.tick q
      match ← Eval.find? x with
      | none => Eval.fault (.variableNotFound x) q
      | some i =>
        match ← Eval.variableAt? i with
        | some ⟨_, _, _, .shared _⟩ => pure (.bool true)
        | _ => pure (.bool false)
    | e => do
      let _ ← evalArg go e
      pure (.bool false)
  | "is_def_fn", [e, n] => do
    let name ← asText (← evalArg go e) e.start
    match ← evalArg go n with
    | .int k =>
      let homes := (← Eval.surroundings).homes
      pure (.bool (decide (0 ≤ k) && (lookUp name k.toInt.toNat homes).isSome))
    | v => Eval.fault (.wrongType v.rawType "i64") n.start
  | "is_def_var", [e] => do
    let name ← asText (← evalArg go e) e.start
    pure (.bool (← Eval.find? name).isSome)
  | "eval", [e] => do evalText go (← asText (← evalArg go e) e.start) e.start
  | name, args => evalPlainCall go name args captures p

/-! ## Expressions -/

/-- The text of a part of a template. -/
def partText (v : Value) : Eval String :=
  match v with
  | .text t => pure t
  | v => describe "to_string" v

/-- The text of a template. -/
def evalTemplate : List Expr → String → Eval Value
  | [], s => pure (.text s)
  | e :: rest, s => do
    let v ← evalArg go e
    let s := s ++ (← partText v)
    Eval.checkMeasure ⟨0, 0, s.utf8ByteSize⟩ e.place
    evalTemplate rest s

/-- The items of an array. -/
def evalItems : List Expr → Value.Size → Array Value → Eval Value
  | [], _, items => pure (.array items)
  | e :: rest, total, items => do
    let v ← evalArg go e
    let bounded := (← Eval.surroundings).limits.boundsData
    let total := if bounded then (total.add v.size).add ⟨1, 0, 0⟩ else total
    if bounded then Eval.checkMeasure total e.place
    evalItems rest total (items.push v)

/-- The entries of an object map. -/
def evalEntries : List (String × Expr) → Value.Size → List (String × Value) → Eval Value
  | [], _, entries => pure (.map entries)
  | (k, e) :: rest, total, entries => do
    let v ← evalArg go e
    let bounded := (← Eval.surroundings).limits.boundsData
    let total := if bounded then (total.add v.size).add ⟨0, 1, 0⟩ else total
    if bounded then Eval.checkMeasure total e.place
    evalEntries rest total (Table.insert entries k v)

/-- What an operator that is not a function makes of its operands. -/
def operated (render : Nat → String) (op : String) (vs : List Value) :
    Option (Except Cause Value) :=
  match vs with
  | [v] => Operator.unary op v
  | [a, b] => if op == "contains" then none else Operator.binary render op a b
  | _ => none

/-- The value of an operator. -/
def evalOperator (op : String) (operands : List Expr) (p : Place) : Eval Value := do
  let vs ← evalArgs go operands
  match operated (← Eval.renderer) op vs with
  | some r => do
    let v ← Eval.ofExcept r p
    Eval.checkSize v p
    pure v
  | none => callOn go op vs p

/-- Shares variables. -/
def shareAll : List Name → Eval (List Value)
  | [] => pure []
  | n :: rest => do
    match ← Eval.find? n.text with
    | none => Eval.fault (.variableNotFound n.text) n.place
    | some i => do
      Eval.share i
      let v := (← Eval.variableAt? i).elim .unit (·.value)
      pure (v :: (← shareAll rest))

/-- The value of an expression. -/
def evalExpr (e : Expr) : Eval Value := do
  Eval.tick e.place
  match e with
  | .literal l _ => pure (Value.ofLiteral l)
  | .var name p => do
    match ← Eval.find? name with
    | none => Eval.fault (.variableNotFound name) p
    | some i =>
      match ← Eval.variableAt? i with
      | some v => Eval.contents v.value
      | none => pure .unit
  | .member path name _ => evalMember path name
  | .this p => do
    match ← Eval.focus? with
    | none => Eval.fault .unboundThis p
    | some t => pure t.value
  | .template parts _ => evalTemplate go parts ""
  | .array items _ => evalItems go items ⟨0, 0, 0⟩ #[]
  | .map entries _ => evalEntries go entries ⟨0, 0, 0⟩ []
  | .operator op operands p => evalOperator go op operands p
  | .both l r _ => do
    if ← evalTest go l then pure (.bool (← evalTest go r)) else pure (.bool false)
  | .either l r _ => do
    if ← evalTest go l then pure (.bool true) else pure (.bool (← evalTest go r))
  | .orElse l r _ => do
    let v ← evalArg go l
    if v.isUnit then evalArg go r else pure v
  | .call name args captures p => evalCall go name args captures p
  | .memberCall path name args p => evalMemberCall go path name args p
  | .chain root links => evalChain go root links none
  | .block body _ => runBlock go body
  | .closure f shared _ => do
    let vs ← shareAll shared
    pure (.fn f.name (some f) ((← Eval.surroundings).homes.headD default) vs)

/-! ## Statements -/

/-- Whether a value is the one that a case stands for. -/
def matchesLiteral (v : Value) (l : Literal) : Bool :=
  let w := Value.ofLiteral l
  match l with
  | .range _ _ _ => false
  | _ => w.sameKind v && (match Operator.equal w v with
    | .ok b => b
    | .error _ => false)

/-- Whether a number is in a range that a case stands for. -/
def inRange (v : Value) (l : Literal) : Bool :=
  match l, v with
  | .range a b i, .int n => a ≤ n && (n < b || (i && n == b))
  | .range a b i, .float x =>
    Float.ofInt a.toInt ≤ x && (x < Float.ofInt b.toInt || (i && x == Float.ofInt b.toInt))
  | _, _ => false

/-- The action of the first case whose condition holds. -/
def firstCase : List Case → Eval (Option Expr)
  | [] => pure none
  | .mk _ none action :: _ => pure (some action)
  | .mk _ (some test) action :: rest => do
    if ← evalTest go test then pure (some action) else firstCase rest

/-- A switch: cases for the very value come first; only where there are none, ranges count; then
comes the default case. -/
def evalSwitch (subject : Expr) (cases : List Case) : Eval Value := do
  let v ← evalArg go subject
  let exact := cases.filter fun | .mk vs _ _ => vs.any (matchesLiteral v)
  let ranged := cases.filter fun | .mk vs _ _ => vs.any (inRange v)
  let action ← firstCase go (if exact.isEmpty then ranged else exact)
  let otherwise := (cases.find? fun | .mk vs _ _ => vs.isEmpty).map fun | .mk _ _ a => a
  match action.or otherwise with
  | some a => evalArg go a
  | none => pure .unit

/-- Runs the body of a loop. The result is the value with which the loop is left, if it is. -/
def runBody (body : List Stmt) : Eval (Option Value) := do
  match ← (runBlock go body).landing with
  | .ok _ | .error .again => pure none
  | .error (.leave v) => pure (some v)
  | .error j => Eval.jump j

/-- Whether a loop goes on. A loop without a test always does; a round of nothing is counted. -/
def loopTest (test : Option Expr) (body : List Stmt) (inner : Place) : Eval Bool :=
  match test with
  | none | some (.literal .unit _) | some (.literal (.bool true) _) => do
    if body.isEmpty then Eval.tick inner
    pure true
  | some e => evalTest go e

/-- A loop with a test in front, or with none. -/
def evalLoop (test : Option Expr) (body : List Stmt) (inner : Place) : Eval Value :=
  Eval.loop () fun _ => do
    if !(← loopTest go test body inner) then pure (.inr .unit)
    else if body.isEmpty then pure (.inl ())
    else match ← runBody go body with
      | some v => pure (.inr v)
      | none => pure (.inl ())

/-- A loop with a test behind its body. A `continue` goes on without the test. -/
def evalRepetition (body : List Stmt) (on : Bool) (test : Expr) : Eval Value :=
  Eval.loop () fun _ => do
    let continueOn : Eval (Unit ⊕ Value) := do
      if (← evalTest go test) == on then pure (.inl ()) else pure (.inr .unit)
    if body.isEmpty then continueOn
    else match ← (runBlock go body).landing with
      | .ok _ => continueOn
      | .error .again => pure (.inl ())
      | .error (.leave v) => pure (.inr v)
      | .error j => Eval.jump j

/-- A round of a loop over values: the variable at `i` takes the next value and, if the rounds are
counted, the one at `n` the number of the round. -/
def eachRound (counted : Bool) (n i : Nat) (body : List Stmt) (inner : Place) :
    Iteration × Nat → Eval ((Iteration × Nat) ⊕ Value) := fun (it, round) => do
  match it.next? with
  | none => pure (.inr .unit)
  | some (v, rest) =>
    if counted then Eval.assign n (.int (Int64.ofNat round))
    Eval.assign i v
    if body.isEmpty then
      Eval.tick inner
      pure (.inl (rest, round + 1))
    else match ← runBody go body with
      | some v => pure (.inr v)
      | none => pure (.inl (rest, round + 1))

/-- A loop over values. One variable takes all values, one after the other. -/
def evalEach (name : Name) (counter : Option Name) (items : Expr) (body : List Stmt)
    (inner : Place) : Eval Value := do
  let v ← evalArg go items
  match Iteration.ofValue? v with
  | none => Eval.fault .notIterable items.start
  | some it => Eval.inside do
    let n ← Eval.scopeSize
    match counter with
    | some c => Eval.declare c.text false (.int 0)
    | none => pure ()
    let i ← Eval.scopeSize
    Eval.declare name.text false .unit
    Eval.loop (it, 0) (eachRound go counter.isSome n i body inner)

/-- A block and what happens if it fails. Throwing nothing in the handler throws the fault again. -/
def evalAttempt (body : List Stmt) (caught : Option Name) (handler : List Stmt) :
    Eval Value := do
  let nothing (f : Fault) : Option Place :=
    match f with
    | .here (.raised .unit) p => some p
    | _ => none
  (runBlock go body).handling fun f => Eval.inside do
    match caught with
    | some n => Eval.declare n.text false (f.caught (← Eval.surroundings).source)
    | none => pure ()
    Eval.catching nothing do
      let _ ← runBlock go handler
      pure .unit

/-- An assignment. -/
def evalAssign (op : Option String) (target value : Expr) (p : Place) : Eval Value := do
  let v ← evalArg go value
  match target with
  | .var name q => do
    Eval.tick q
    match ← Eval.find? name with
    | none => Eval.fault (.variableNotFound name) q
    | some i => do
      Eval.aboutVariable i (applyAssignment ⟨op, v, p, name, q⟩)
      pure .unit
  | .this q => do
    match ← Eval.focus? with
    | none => Eval.fault .unboundThis q
    | some _ => do
      applyAssignment ⟨op, v, p, "this", q⟩
      pure .unit
  | .chain root links => do
    let name := match root with
      | .var n _ => n
      | _ => "this"
    evalChain go root links (some ⟨op, v, p, name, root.place⟩)
  | e => Eval.fault (.constantModified "") e.place

/-- Where a statement stands. -/
def Stmt.place : Stmt → Place
  | .expr e => e.place
  | .nothing p | .declare _ _ _ _ p | .assign _ _ _ p | .branch _ _ _ p | .block _ p
  | .switch _ _ p | .loop _ _ _ p | .repetition _ _ _ _ p | .each _ _ _ _ _ p | .leave _ p
  | .again p | .giveBack _ p | .raise _ p | .attempt _ _ _ p | .use _ _ p | .offer _ _ p => p
  | .share names => pathPlace names

/-- The value of an optional expression. -/
def evalOptional : Option Expr → Eval Value
  | none => pure .unit
  | some e => evalArg go e

/-- Runs a statement. -/
def evalStmt (s : Stmt) : Eval Value := do
  Eval.tick s.place
  match s with
  | .nothing _ => pure .unit
  | .expr e => evalArg go e
  | .declare constant exported name value _ => do
    let v ← evalArg go value
    Eval.declare name.text constant v
    if exported then
      match ← Eval.find? name.text with
      | some i => Eval.changeVariable i fun x => { x with offered := name.text :: x.offered }
      | none => pure ()
    pure .unit
  | .assign op target value p => evalAssign go op target value p
  | .branch test yes no _ => do
    if ← evalTest go test then runBlock go yes else runBlock go no
  | .block body _ => runBlock go body
  | .switch subject cases _ => evalSwitch go subject cases
  | .loop test body inner _ => evalLoop go test body inner
  | .repetition body on test _ _ => evalRepetition go body on test
  | .each name counter items body inner _ => evalEach go name counter items body inner
  | .leave value _ => do Eval.jump (.leave (← evalOptional go value))
  | .again _ => Eval.jump .again
  | .giveBack value _ => do Eval.jump (.giveBack (← evalOptional go value))
  | .raise value p => do Eval.fault (.raised (← evalOptional go value)) p
  | .attempt body caught handler _ => evalAttempt go body caught handler
  | .use path newName _ => do
    let v ← evalArg go path
    let s ← asText v path.place
    let m ← loadModule go s path.start
    Eval.setImports ((newName.elim "" (·.text), m) :: (← Eval.imports))
    pure .unit
  | .offer name newName _ => do
    match ← Eval.find? name.text with
    | none => Eval.fault (.variableNotFound name.text) name.place
    | some i =>
      let shown := (newName.getD name).text
      Eval.changeVariable i fun x => { x with offered := shown :: x.offered }
      pure .unit
  | .share names => do
    let _ ← shareAll names
    pure .unit

/-- Evaluates a piece of code whose parts are evaluated by `go`. -/
def step : Code → Eval Value
  | .expr e => evalExpr go e
  | .stmt s => evalStmt go s
  | .call f isMethod args p => callValue go f isMethod args p

/-- Evaluates code that is nested at most a number of levels deep. -/
def interpret : Nat → Code → Eval Value
  | 0, _ => Eval.fault .exhausted .none
  | n + 1, c => step (interpret n) c

/-- Runs the statements of a script, remembering its constants. -/
def runScript (go : Go) : List Stmt → Eval Unit
  | [] => pure ()
  | s :: rest => do
    let _ ← go (.stmt s)
    match s with
    | .declare true _ name _ _ =>
      match ← Eval.find? name.text with
      | some i =>
        let v := (← Eval.variableAt? i).elim .unit (·.value)
        Eval.addConstant name.text v
      | none => pure ()
    | _ => pure ()
    runScript go rest

end ScriptedActions.Script
