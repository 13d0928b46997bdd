import ScriptedActions.Script.Call

/-!
# Accesses

What happens along an access such as `a.b[i].f(x) = v`. All indices and arguments are evaluated
first. Then the access walks down from its root: what it is about is in focus, and a step into a
part of a value puts the part back when the rest of the access is done. Properties of values that
are no object maps are read as a whole and written back if the rest of the access may have
changed them.
-/

set_option autoImplicit false

namespace ScriptedActions.Script

/-- A step of an access whose indices and arguments are evaluated. -/
inductive Step where
  | field (name : String) (p dot : Place) (lenient : Bool)
  | method (name : String) (args : List Value) (first p : Place) (lenient : Bool)
  | index (v : Value) (p dot : Place) (lenient : Bool)

/-- Whether the access may end at a step when there is nothing to step into. -/
def Step.lenient : Step → Bool
  | .field _ _ _ l | .method _ _ _ _ l | .index _ _ _ l => l

/-- What is assigned at the end of an access: a value, and the operator that combines it with the
one before; `root` and `rootPlace` are the variable that the access starts at. -/
structure Assignment where
  op : Option String
  value : Value
  place : Place
  root : String
  rootPlace : Place

variable (go : Go)

/-- The value of an argument. -/
def evalArg (e : Expr) : Eval Value := do Eval.contents (← go (.expr e))

/-- The values of arguments. -/
def evalArgs : List Expr → Eval (List Value)
  | [] => pure []
  | e :: rest => do
    let v ← evalArg go e
    pure (v :: (← evalArgs rest))

/-- The steps of an access. -/
def evalLinks : List Link → Eval (List Step)
  | [] => pure []
  | .field name p dot lenient :: rest => do
    pure (.field name p dot lenient :: (← evalLinks rest))
  | .method name args p _ lenient :: rest => do
    let vs ← evalArgs go args
    let first := (args.head?.elim p Expr.place)
    pure (.method name vs first p lenient :: (← evalLinks rest))
  | .index e dot lenient :: rest => do
    let v ← evalArg go e
    pure (.index v e.start dot lenient :: (← evalLinks rest))

/-- The value of a combining assignment. -/
def combine (op : String) (a b : Value) (p : Place) : Eval Value := do
  match Operator.combined (← Eval.renderer) op a b with
  | some r =>
    let v ← Eval.ofExcept r p
    Eval.checkSize v p
    pure v
  | none => Eval.fault (.functionNotFound (signature op [a, b])) p

/-- Assigns to what is in focus. -/
def applyAssignment (a : Assignment) : Eval Unit := do
  match ← Eval.focus? with
  | none => pure ()
  | some t =>
    if t.constant then Eval.fault (.constantModified a.root) a.rootPlace
    else match a.op with
      | none => Eval.refocus a.value
      | some op => Eval.refocus (← combine op t.value a.value a.place)

/-- A computation about a part of what is in focus. -/
def aboutPart {α : Type} (part : Part) (p : Place) (x : Eval α) : Eval α := do
  let constant := (← Eval.focus?).any (·.constant)
  let whole ← Eval.focused
  Eval.about (some ⟨part.get whole, constant⟩) (.part part p) x

/-! ## Indexers and properties -/

/-- Reads through the indexer of what is in focus, which only reply objects have. -/
def indexerGet (index : Value) (dot : Place) : Eval Value := do
  Eval.tick dot
  let v ← Eval.focused
  match v, index with
  | .reply n, .text k => do
    match (← Eval.version n).get? k with
    | some j => pure (Value.ofJson j)
    | none => pure .unit
  | v, i => Eval.fault (.noIndexer (v.typeName ++ " [" ++ i.typeName ++ "]")) dot

/-- Writes through the indexer of what is in focus. -/
def indexerSet (index new : Value) (dot : Place) : Eval Unit := do
  Eval.tick dot
  let v ← Eval.focused
  match v, index with
  | .reply n, .text k => do
    match new.toJson with
    | .ok j => Eval.refocus (.reply (← Eval.writeOutput n k j dot))
    | .error reason =>
      Eval.fault (.raised (.text (ReplyError.message (.invalidValue k reason)))) dot
  | v, i =>
    Eval.fault (.noIndexer (v.typeName ++ " [" ++ i.typeName ++ "] = " ++ new.typeName)) dot

/-- Whether a fault says, of the very access that raised it, that there is no indexer for it. -/
def missingIndexer? : Fault → Option Unit
  | .here (.noIndexer _) _ => some ()
  | _ => none

/-- A computation, or another one if there is no indexer for it. -/
def orWithoutIndexer {α : Type} (x : Eval α) (other : Eval α) : Eval α := do
  match ← x.catching missingIndexer? with
  | .ok a => pure a
  | .error () => other

/-- Reads a property of what is in focus, which is no object map. -/
def getProperty (name : String) (p dot : Place) : Eval Value := do
  Eval.tick p
  let v ← Eval.focused
  let limits := (← Eval.surroundings).limits
  match Library.getter? limits (← Eval.renderer) name v with
  | some n => do
    let r ← runNative n name p
    Eval.checkSize r p
    pure r
  | none =>
    orWithoutIndexer (indexerGet (.text name) dot) <|
      Eval.fault (.badProperty ("Unknown property '" ++ name ++
        "' - a getter is not registered for type '" ++ v.typeName ++ "'")) p

/-- Writes a property of what is in focus, which is no object map; `missing` happens if there is no
way to. -/
def setProperty (name : String) (new : Value) (p dot : Place) (missing : Eval Unit) : Eval Unit := do
  Eval.tick p
  match name, new with
  | "tag", .int _ => pure ()
  | _, _ => orWithoutIndexer (indexerSet (.text name) new dot) missing

/-- The fault of writing a property that cannot be written. -/
def noSetter (name : String) (new : Value) (p : Place) : Eval Unit := do
  let v ← Eval.focused
  Eval.fault (.badProperty ("No writable property '" ++ name ++
    "' - a setter is not registered for type '" ++ v.typeName ++ "' to handle '" ++
    new.typeName ++ "'")) p

/-! ## Methods -/

/-- Calls a method of what is in focus. The result comes with whether the focus may have been
changed. -/
def callMethod (name : String) (args : List Value) (first p : Place) : Eval (Value × Bool) := do
  let target ← Eval.focused
  match name, target, args with
  | "call", .fn _ _ _ _, args => do
    pure (← callValue go target false args p, false)
  | "call", t, [] => Eval.fault (.wrongType t.typeName "Fn") p
  | "call", _, f :: rest =>
    match f with
    | .fn _ _ _ _ => do pure (← callValue go f true rest p, false)
    | v => Eval.fault (.wrongType v.typeName "Fn") first
  | "curry", t, args =>
    match t with
    | .fn n b h c => pure (.fn n b h (c ++ args), false)
    | v => Eval.fault (.wrongType v.typeName "Fn") p
  | "is_shared", _, [] => pure (.bool false, false)
  | "Fn", _, [] | "eval", _, [] | "is_def_var", _, [] | "is_def_fn", _, [_] =>
    Eval.fault (.raised (.text ("'" ++ name ++ "' should not be called this way. Try " ++ name ++
      "(...);"))) p
  | name, t, args =>
    match t with
    | .map entries =>
      match Table.get? entries name with
      | some (.fn n b h c) => do
        pure (← callValue go (.fn n b h c) true args p, false)
      | _ => callNamed go name (t :: args) true true p
    | _ => callNamed go name (t :: args) true true p

/-! ## The walk -/

/-- What is left of an access behind a step. -/
inductive Onward where
  /-- Nothing: the access has the value of the step. -/
  | ends
  /-- What the step leads to is assigned. -/
  | assigns (a : Assignment)
  | goes (next : Eval (Value × Bool))

/-- What a property or an item behind an indexer becomes by an assignment. -/
def assigned (a : Assignment) (old : Eval (Option Value)) : Eval Value := do
  match a.op with
  | none => pure a.value
  | some op =>
    match ← old with
    | some v => combine op v a.value a.place
    | none => pure a.value

/-- Goes on from the result of a method. -/
def walkMethod (name : String) (args : List Value) (first p : Place) (onward : Onward) :
    Eval (Value × Bool) := do
  let r ← callMethod go name args first p
  match onward with
  | .goes next => pure (← Eval.aboutValue r.1 next).1
  | _ => pure r

/-- Goes on from an entry of an object map. -/
def walkEntry (entries : List (String × Value)) (name : String) (p : Place) (onward : Onward) :
    Eval (Value × Bool) :=
  match onward with
  | .assigns a => do
    aboutPart (.entry name) a.place (applyAssignment a)
    Eval.checkSize (← Eval.focused) a.place
    pure (.unit, true)
  | .ends => pure ((Table.get? entries name).getD .unit, false)
  | .goes next => do
    if Table.contains entries name then aboutPart (.entry name) p next
    else pure (← Eval.aboutValue .unit next).1

/-- Goes on from a property, which is written back if it may have been changed. -/
def walkProperty (name : String) (p dot : Place) (onward : Onward) : Eval (Value × Bool) :=
  match onward with
  | .assigns a => do
    let new ← assigned a (do pure (some (← getProperty name p dot)))
    setProperty name new p dot (noSetter name new p)
    pure (.unit, true)
  | .ends => do pure (← getProperty name p dot, false)
  | .goes next => do
    let v ← getProperty name p dot
    let (r, new) ← Eval.aboutValue v next
    if r.2 then setProperty name new p dot (pure ())
    pure r

/-- Goes on from a part that an index leads to. -/
def walkPart (here : Value) (part : Part) (p : Place) (onward : Onward) : Eval (Value × Bool) :=
  match onward with
  | .ends => pure (part.get here, false)
  | .assigns a => do
    if part.isItself then
      aboutPart part a.place do
        applyAssignment a
        Eval.checkSize (← Eval.focused) a.place
    else aboutPart part a.place (applyAssignment a)
    pure (.unit, true)
  | .goes next => do
    if part.isItself then aboutPart part p next
    else
      let (r, new) ← Eval.aboutValue (part.get here) next
      if r.2 then
        match part with
        | .absent => pure ()
        | _ => Eval.refocus (← Eval.ofExcept (part.put (← Eval.focused) new) p)
      pure r

/-- Goes on from what an indexer leads to, which is written back if it may have been changed. -/
def walkIndexer (index : Value) (dot : Place) (onward : Onward) : Eval (Value × Bool) :=
  match onward with
  | .ends => do pure (← indexerGet index dot, false)
  | .assigns a => do
    let new ← assigned a (indexerGet index dot).value?
    indexerSet index new dot
    pure (.unit, true)
  | .goes next => do
    let v ← indexerGet index dot
    let (r, new) ← Eval.aboutValue v next
    if r.2 then orWithoutIndexer (indexerSet index new dot) (pure ())
    pure r

/-- Goes on from what an index leads to. -/
def walkIndex (here index : Value) (p dot : Place) (onward : Onward) : Eval (Value × Bool) := do
  Eval.tick .none
  let isAssigned := match onward with
    | .assigns _ => true
    | _ => false
  match Part.find? here index isAssigned with
  | some found => walkPart here (← Eval.ofExcept found p) p onward
  | none => walkIndexer index dot onward

/-- Walks along an access whose next steps are given, from what is in focus. The result comes with
whether the focus may have been changed. -/
def walk : List Step → Option Assignment → Eval (Value × Bool)
  | [], none => do pure (← Eval.focused, false)
  | [], some a => do
    applyAssignment a
    pure (.unit, true)
  | step :: rest, goal => do
    let here ← Eval.focused
    if step.lenient && here.isUnit then pure (.unit, false)
    else
      let onward : Onward := match rest, goal with
        | [], none => .ends
        | [], some a => .assigns a
        | _, _ => .goes (walk rest goal)
      match step with
      | .method name args first p _ => walkMethod go name args first p onward
      | .field name p dot _ =>
        match here with
        | .map entries => walkEntry entries name p onward
        | _ => walkProperty name p dot onward
      | .index i p dot _ => walkIndex here i p dot onward

/-- The value of an access, or its assignment. -/
def evalChain (root : Expr) (links : List Link) (goal : Option Assignment) : Eval Value := do
  let dot := (links.head?.elim root.place Link.dot)
  Eval.orAt dot do
    let steps ← evalLinks go links
    match root with
    | .var name p => do
      Eval.tick p
      match ← Eval.find? name with
      | none => Eval.fault (.variableNotFound name) p
      | some i =>
        let constant := (← Eval.variableAt? i).any (·.constant)
        if constant && goal.isSome then Eval.fault (.constantModified name) p
        else pure (← Eval.aboutVariable i (walk go steps goal)).1
    | .this p => do
      Eval.tick p
      match ← Eval.focus? with
      | none => Eval.fault .unboundThis p
      | some t =>
        if t.constant && goal.isSome then Eval.fault (.constantModified "this") p
        else pure (← walk go steps goal).1
    | e => do
      let v ← evalArg go e
      pure (← Eval.aboutValue v (walk go steps goal)).1.1

end ScriptedActions.Script
