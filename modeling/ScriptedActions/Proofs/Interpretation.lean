import ScriptedActions.Proofs.Accesses
import ScriptedActions.Script.Engine

/-!
# Every script keeps every discipline

The last layer: expressions, statements and whole scripts. `Discipline.step` says that a piece of
code keeps a discipline if its parts do, one case for every form of code. The parts of code are
evaluated by `interpret` with one level of nesting less, so `Discipline.interpret` is an induction
on the levels, and `Discipline.execute` is what the rest of the development uses: a property of
computations that meets the laws of a discipline is a property of every run.
-/

set_option autoImplicit false

namespace ScriptedActions.Script.Discipline

variable (D : Discipline)

/-! ## Texts, truth values and variables -/

theorem asBool (v : Value) (p : Place) : D.Holds (asBool v p) := by
  unfold Script.asBool
  split
  · exact D.pure _
  · exact D.fault _ p

theorem asText (v : Value) (p : Place) : D.Holds (asText v p) := by
  unfold Script.asText
  split
  · exact D.pure _
  · exact D.fault _ p

theorem functionNamed (name : String) (p : Place) : D.Holds (functionNamed name p) := by
  unfold Script.functionNamed
  split
  · exact D.reading (fun _ => rfl) fun s => D.pure _
  · exact D.fault _ p

theorem shareAll (names : List Name) : D.Holds (shareAll names) := by
  induction names with
  | nil => exact D.pure []
  | cons n rest ih =>
    refine D.after (.find? n.text) fun i => ?_
    split
    · exact D.fault _ _
    · exact D.after (.share _) fun _ => D.after (.variableAt? _) fun v =>
        D.bind ih fun vs => D.pure _

theorem evalMember (path : List Name) (name : String) : D.Holds (evalMember path name) := by
  refine D.after .imports fun modules => ?_
  split
  · split
    · exact D.quiet (.contents _)
    · exact D.fault _ _
  · split
    · refine D.after (.constant? name) fun v => ?_
      split
      · exact D.pure _
      · exact D.fault _ _
    · exact D.fault _ _

variable {go : Go} (hgo : ∀ c, D.Holds (go c))

include hgo

theorem evalTest (e : Expr) : D.Holds (evalTest go e) :=
  D.bind (D.evalArg hgo e) fun v => D.asBool v e.place

theorem evalOptional (e : Option Expr) : D.Holds (evalOptional go e) := by
  cases e with
  | none => exact D.pure Value.unit
  | some e => exact D.evalArg hgo e

/-! ## Modules -/

theorem evalMemberCall (path : List Name) (name : String) (args : List Expr) (p : Place) :
    D.Holds (evalMemberCall go path name args p) := by
  refine D.bind (D.evalArgs hgo args) fun vs => D.after .imports fun modules => ?_
  split
  · split
    · exact D.withImports (D.after .imports fun l => D.after (.setImports _) fun _ =>
        D.aboutNothing (D.runFunction hgo _ _ _ _ _ p))
    · exact D.fault _ p
  · exact D.fault _ _

theorem loadModule (path : String) (p : Place) : D.Holds (loadModule go path p) := by
  refine D.limited (fun s => D.after (.loaded? _) fun known => ?_)
    (.after (fun _ => .loaded? _) (fun _ => rfl) fun known => ?_)
  · split
    · exact D.pure _
    · dsimp only
      split
      · exact D.fault _ p
      · split
        · exact D.mapFault (fun e => e.root?_inModule path p) (D.fault _ _)
        · refine D.after .scopeSize fun n => D.after .imports fun outer =>
            D.bind (D.mapFault (fun e => e.root?_inModule path p) (D.inside (D.withImports ?_)))
              fun m => D.after (.remember _ m) fun _ => D.pure m
          refine D.bind (D.returned (D.under ⟨fun _ _ => rfl, fun _ => rfl⟩ ?_)) fun _ =>
            D.after .imports fun inner => D.after (.offered n) fun declared => D.pure _
          exact D.aboutNothing (D.runAll hgo _)
  · -- the texts of modules are parsed within the limits too, so one of them can be refused
    intro s m hs
    cases known with
    | some known => exact .inl rfl
    | none =>
      dsimp only [Surroundings.relaxed]
      cases htext : s.moduleText (moduleFile s.source path) with
      | none => exact .inl rfl
      | some text =>
        dsimp only
        rcases s.limits.parse_or (withoutInterpreter text) with hsame | ⟨e, he, hrefused⟩
        · rw [hsame]
          cases hparse : Program.parse s.limits (withoutInterpreter text) with
          | error e => exact .inl rfl
          | ok program =>
            dsimp only
            rw [hs _ text program htext hparse]
            exact .inl rfl
        · rw [he]
          exact .inr (.inl ⟨_, _, rfl, _, rfl, hrefused⟩)

/-! ## Calls by name -/

theorem evalText (text : String) (p : Place) : D.Holds (evalText go text p) := by
  refine D.limited (fun s => D.reading (fun _ => rfl) fun s' => ?_) fun s m _ => ?_
  · refine D.returned (D.mapFault (fun e => e.root?_inCall "eval" s'.source p)
      (D.under ⟨fun _ _ => rfl, fun _ => rfl⟩ ?_))
    split
    · exact D.fault _ _
    · split
      · exact D.fault _ _
      · exact D.aboutNothing (D.runAll hgo _)
  · dsimp only [Surroundings.relaxed]
    rcases s.limits.parse_or (Text.trim text) with hsame | ⟨e, he, hrefused⟩
    · rw [hsame]
      exact .inl rfl
    · rw [he]
      exact .inr (.inl ⟨_, _, rfl, _, rfl, hrefused⟩)

theorem evalPlainCall (name : String) (args : List Expr) (captures : Bool) (p : Place) :
    D.Holds (evalPlainCall go name args captures p) := by
  have hon (vs : List Value) : D.Holds (Script.callOn go name vs p) := D.callOn hgo name vs p
  have hvalues (es : List Expr) : D.Holds (do Script.callOn go name (← Script.evalArgs go es) p) :=
    D.bind (D.evalArgs hgo es) hon
  unfold Script.evalPlainCall
  dsimp only
  split
  · refine D.bind (D.evalArgs hgo args) fun vs => D.reading (fun _ => rfl) fun s => ?_
    split
    · split
      · exact D.pure _
      · exact D.aboutNothing (D.runFunction hgo _ _ _ _ _ p)
    · exact hon vs
  · split
    · -- a variable in front is looked up behind the other arguments, for the call may change it
      refine D.bind (D.evalArgs hgo _) fun vs => D.bind (D.tick _) fun _ =>
        D.after (.find? _) fun i => ?_
      split
      · exact D.fault _ _
      · refine D.after (.variableAt? _) fun v => ?_
        split
        · exact D.after (.contents _) fun w => hon _
        · exact D.after (.contents _) fun w => hon _
        · exact hon _
        · exact D.bind (D.aboutVariable _ (D.callNamed hgo name _ true false p)) fun r => D.pure _
        · exact D.pure _
    · refine D.bind (D.evalArgs hgo _) fun vs => D.bind (D.tick _) fun _ =>
        D.after .focus? fun t => ?_
      split
      · exact D.fault _ _
      · exact D.bind (D.callNamed hgo name _ true false p) fun r => D.pure _
    · exact hvalues args

theorem evalCall (name : String) (args : List Expr) (captures : Bool) (p : Place) :
    D.Holds (evalCall go name args captures p) := by
  have htext (e : Expr) {α : Type} {f : String → Eval α} (hf : ∀ s, D.Holds (f s)) :
      D.Holds (do f (← Script.asText (← Script.evalArg go e) e.start)) :=
    D.bind (D.evalArg hgo e) fun v => D.bind (D.asText v e.start) hf
  unfold Script.evalCall
  split
  case h_1 f rest =>
    refine D.bind (D.evalArg hgo f) fun v => ?_
    split
    · exact D.evalPlainCall hgo _ rest false p
    · exact D.bind (D.evalArgs hgo rest) fun vs => D.callValue hgo _ false vs p
    · exact D.fault _ _
  case h_2 e => exact htext e fun s => D.functionNamed s e.start
  case h_3 f e rest =>
    refine D.bind (D.evalArg hgo f) fun v => ?_
    split
    · exact D.bind (D.evalArgs hgo _) fun vs => D.pure _
    · exact D.fault _ _
  case h_4 e =>
    split
    · refine D.bind (D.tick _) fun _ => D.after (.find? _) fun i => ?_
      split
      · exact D.fault _ _
      · refine D.after (.variableAt? _) fun v => ?_
        split <;> exact D.pure _
    · exact D.bind (D.evalArg hgo _) fun _ => D.pure _
  case h_5 e n =>
    refine htext e fun s => D.bind (D.evalArg hgo n) fun v => ?_
    split
    · exact D.reading (fun _ => rfl) fun s' => D.pure _
    · exact D.fault _ _
  case h_6 e => exact htext e fun s => D.after (.find? s) fun i => D.pure _
  case h_7 e => exact htext e fun s => D.evalText hgo s e.start
  case h_8 => exact D.evalPlainCall hgo name args captures p

/-! ## Expressions -/

omit hgo in
theorem partText (v : Value) : D.Holds (partText v) := by
  unfold Script.partText
  split
  · exact D.pure _
  · exact D.describe _ v

omit hgo in
/-- Without limits nobody asks how large the items of an array are that came before. -/
theorem run_evalItems (go : Go) (items : List Expr) (total total' : Value.Size) (values : Array Value)
    (s : Surroundings) (m : Machine) : (Script.evalItems go items total values).run s.relaxed m =
      (Script.evalItems go items total' values).run s.relaxed m := by
  induction items generalizing total total' values m with
  | nil => rfl
  | cons e rest ih =>
    unfold Script.evalItems
    rw [Eval.run_bind, Eval.run_bind]
    cases (Script.evalArg go e).run s.relaxed m with
    | error e n => rfl
    | ok v n => exact ih total total' (values.push v) n

omit hgo in
theorem run_evalEntries (go : Go) (entries : List (String × Expr)) (total total' : Value.Size)
    (values : List (String × Value)) (s : Surroundings) (m : Machine) :
    (Script.evalEntries go entries total values).run s.relaxed m =
      (Script.evalEntries go entries total' values).run s.relaxed m := by
  induction entries generalizing total total' values m with
  | nil => rfl
  | cons e rest ih =>
    obtain ⟨k, e⟩ := e
    unfold Script.evalEntries
    rw [Eval.run_bind, Eval.run_bind]
    cases (Script.evalArg go e).run s.relaxed m with
    | error e n => rfl
    | ok v n => exact ih total total' (Table.insert values k v) n

theorem evalTemplate (parts : List Expr) (text : String) : D.Holds (evalTemplate go parts text) := by
  induction parts generalizing text with
  | nil => exact D.pure _
  | cons e rest ih =>
    exact D.bind (D.evalArg hgo e) fun v => D.bind (D.partText v) fun t =>
      D.bind (D.checkMeasure _ _) fun _ => ih _

theorem evalItems (items : List Expr) (total : Value.Size) (values : Array Value) :
    D.Holds (evalItems go items total values) := by
  induction items generalizing total values with
  | nil => exact D.pure _
  | cons e rest ih =>
    refine D.bind (D.evalArg hgo e) fun v => D.limited (fun s => ?_) fun s m _ => .inl ?_
    · dsimp only
      split
      · exact D.bind (D.checkMeasure _ _) fun _ => ih _ _
      · exact ih _ _
    · show (Script.evalItems go rest total (values.push v)).run s.relaxed m = _
      cases s.limits.boundsData
      · rfl
      · exact run_evalItems go rest _ _ _ s m

theorem evalEntries (entries : List (String × Expr)) (total : Value.Size)
    (values : List (String × Value)) : D.Holds (evalEntries go entries total values) := by
  induction entries generalizing total values with
  | nil => exact D.pure _
  | cons e rest ih =>
    refine D.bind (D.evalArg hgo e.2) fun v => D.limited (fun s => ?_) fun s m _ => .inl ?_
    · dsimp only
      split
      · exact D.bind (D.checkMeasure _ _) fun _ => ih _ _
      · exact ih _ _
    · show (Script.evalEntries go rest total (Table.insert values e.1 v)).run s.relaxed m = _
      cases s.limits.boundsData
      · rfl
      · exact run_evalEntries go rest _ _ _ s m

theorem evalOperator (op : String) (operands : List Expr) (p : Place) :
    D.Holds (evalOperator go op operands p) := by
  refine D.bind (D.evalArgs hgo operands) fun vs => D.after .renderer fun render => ?_
  split
  · exact D.bind (D.ofExcept _ p) fun v => D.bind (D.checkSize v p) fun _ => D.pure v
  · exact D.callOn hgo op vs p

/-- One case for every form of expression. -/
theorem evalExpr (e : Expr) : D.Holds (evalExpr go e) := by
  refine D.bind (D.tick e.place) fun _ => ?_
  cases e with
  | literal l p => exact D.pure _
  | var name p =>
    refine D.after (.find? name) fun i => ?_
    split
    · exact D.fault _ p
    · refine D.after (.variableAt? _) fun v => ?_
      split
      · exact D.quiet (.contents _)
      · exact D.pure _
  | member path name p => exact D.evalMember path name
  | this p =>
    refine D.after .focus? fun t => ?_
    split
    · exact D.fault _ p
    · exact D.pure _
  | template parts p => exact D.evalTemplate hgo parts ""
  | array items p => exact D.evalItems hgo items _ _
  | map entries p => exact D.evalEntries hgo entries _ _
  | operator op operands p => exact D.evalOperator hgo op operands p
  | both l r p =>
    refine D.bind (D.evalTest hgo l) fun b => ?_
    split
    · exact D.bind (D.evalTest hgo r) fun c => D.pure _
    · exact D.pure _
  | either l r p =>
    refine D.bind (D.evalTest hgo l) fun b => ?_
    split
    · exact D.pure _
    · exact D.bind (D.evalTest hgo r) fun c => D.pure _
  | orElse l r p =>
    refine D.bind (D.evalArg hgo l) fun v => ?_
    split
    · exact D.evalArg hgo r
    · exact D.pure v
  | call name args captures p => exact D.evalCall hgo name args captures p
  | memberCall path name args p => exact D.evalMemberCall hgo path name args p
  | chain root links => exact D.evalChain hgo root links none
  | block body p => exact D.runBlock hgo body
  | closure f shared p =>
    exact D.bind (D.shareAll shared) fun vs => D.reading (fun _ => rfl) fun s => D.pure _

/-! ## Statements -/

theorem firstCase (cases : List Case) : D.Holds (firstCase go cases) := by
  induction cases with
  | nil => exact D.pure none
  | cons c rest ih =>
    obtain ⟨values, test, action⟩ := c
    cases test with
    | none => exact D.pure _
    | some test =>
      refine D.bind (D.evalTest hgo test) fun b => ?_
      split
      · exact D.pure _
      · exact ih

theorem evalSwitch (subject : Expr) (cases : List Case) :
    D.Holds (evalSwitch go subject cases) := by
  refine D.bind (D.evalArg hgo subject) fun v => D.bind (D.firstCase hgo _) fun found => ?_
  dsimp only
  split
  · exact D.evalArg hgo _
  · exact D.pure _

theorem runBody (body : List Stmt) : D.Holds (runBody go body) := by
  refine D.bind (D.landing (D.runBlock hgo body)) fun r => ?_
  split
  · exact D.pure none
  · exact D.pure none
  · exact D.pure (some _)
  · exact D.jump _

theorem loopTest (test : Option Expr) (body : List Stmt) (inner : Place) :
    D.Holds (loopTest go test body inner) := by
  have hround : D.Holds (do
      if body.isEmpty then Eval.tick inner
      pure true) := by
    dsimp only
    split
    · exact D.bind (D.tick inner) fun _ => D.pure true
    · exact D.pure true
  unfold Script.loopTest
  split
  · exact hround
  · exact hround
  · exact hround
  · exact D.evalTest hgo _

theorem evalLoop (test : Option Expr) (body : List Stmt) (inner : Place) :
    D.Holds (evalLoop go test body inner) := by
  refine D.loop () fun _ => D.bind (D.loopTest hgo test body inner) fun on => ?_
  split
  · exact D.pure _
  · split
    · exact D.pure _
    · refine D.bind (D.runBody hgo body) fun r => ?_
      split <;> exact D.pure _

theorem evalRepetition (body : List Stmt) (on : Bool) (test : Expr) :
    D.Holds (evalRepetition go body on test) := by
  refine D.loop () fun _ => ?_
  have hon : D.Holds (do
      if (← Script.evalTest go test) == on then pure (.inl ()) else pure (.inr .unit) :
        Eval (Unit ⊕ Value)) := by
    refine D.bind (D.evalTest hgo test) fun b => ?_
    split <;> exact D.pure _
  dsimp only
  split
  · exact hon
  · refine D.bind (D.landing (D.runBlock hgo body)) fun r => ?_
    split
    · exact hon
    · exact D.pure _
    · exact D.pure _
    · exact D.jump _

/-- A round of a loop over values. -/
theorem eachRound (counted : Bool) (n i : Nat) (body : List Stmt) (inner : Place)
    (state : Iteration × Nat) : D.Holds (eachRound go counted n i body inner state) := by
  obtain ⟨it, round⟩ := state
  dsimp only [Script.eachRound]
  split
  · exact D.pure _
  · split
    case' isTrue => refine D.after (.assign n _) fun _ => ?_
    -- an item is assigned whether or not the rounds are counted, and an empty body is not run
    all_goals
      refine D.after (.assign i _) fun _ => ?_
      split
      · exact D.bind (D.tick inner) fun _ => D.pure _
      · refine D.bind (D.runBody hgo body) fun r => ?_
        split <;> exact D.pure _

theorem evalEach (name : Name) (counter : Option Name) (items : Expr) (body : List Stmt)
    (inner : Place) : D.Holds (evalEach go name counter items body inner) := by
  refine D.bind (D.evalArg hgo items) fun v => ?_
  split
  · exact D.fault _ _
  · refine D.inside (D.after .scopeSize fun n => ?_)
    have hloop (it : Iteration) : D.Holds (do
        let i ← Eval.scopeSize
        Eval.declare name.text false .unit
        Eval.loop (it, 0) (Script.eachRound go counter.isSome n i body inner)) :=
      D.after .scopeSize fun i => D.after (.declare _ _ _) fun _ =>
        D.loop _ (D.eachRound hgo _ n i body inner)
    dsimp only
    split
    · exact D.after (.declare _ _ _) fun _ => hloop _
    · exact hloop _

/-- A handler takes a fault or passes it on; the discipline has a law for that. -/
theorem evalAttempt (body : List Stmt) (caught : Option Name) (handler : List Stmt) :
    D.Holds (evalAttempt go body caught handler) := by
  refine D.handling (D.runBlock hgo body) fun f => D.inside ?_
  dsimp only
  split
  case' h_1 => refine D.reading (fun _ => rfl) fun s => D.after (.declare _ _ _) fun _ => ?_
  -- what the handler throws without a value is an ordinary fault
  all_goals
    refine D.catching (fun e he => ?_) (D.bind (D.runBlock hgo handler) fun _ => D.pure _)
    split at he
    · exact ⟨_, rfl, by rintro a ⟨⟩, nofun⟩
    · cases he

theorem evalAssign (op : Option String) (target value : Expr) (p : Place) :
    D.Holds (evalAssign go op target value p) := by
  refine D.bind (D.evalArg hgo value) fun v => ?_
  split
  · refine D.bind (D.tick _) fun _ => D.after (.find? _) fun i => ?_
    split
    · exact D.fault _ _
    · exact D.bind (D.aboutVariable _ (D.applyAssignment _)) fun _ => D.pure _
  · refine D.after .focus? fun t => ?_
    split
    · exact D.fault _ _
    · exact D.bind (D.applyAssignment _) fun _ => D.pure _
  · exact D.evalChain hgo _ _ _
  · exact D.fault _ _

/-- One case for every form of statement. -/
theorem evalStmt (s : Stmt) : D.Holds (evalStmt go s) := by
  refine D.bind (D.tick s.place) fun _ => ?_
  cases s with
  | nothing p => exact D.pure _
  | expr e => exact D.evalArg hgo e
  | declare constant exported name value p =>
    refine D.bind (D.evalArg hgo value) fun v => D.after (.declare _ _ _) fun _ => ?_
    dsimp only
    split
    · refine D.after (.find? _) fun i => ?_
      split
      · exact D.after (.changeVariable _ _) fun _ => D.pure _
      · exact D.pure _
    · exact D.pure _
  | assign op target value p => exact D.evalAssign hgo op target value p
  | branch test yes no p =>
    refine D.bind (D.evalTest hgo test) fun b => ?_
    split
    · exact D.runBlock hgo yes
    · exact D.runBlock hgo no
  | block body p => exact D.runBlock hgo body
  | switch subject cases p => exact D.evalSwitch hgo subject cases
  | loop test body inner p => exact D.evalLoop hgo test body inner
  | repetition body on test inner p => exact D.evalRepetition hgo body on test
  | each name counter items body inner p => exact D.evalEach hgo name counter items body inner
  | leave value p => exact D.bind (D.evalOptional hgo value) fun v => D.jump _
  | again p => exact D.jump _
  | giveBack value p => exact D.bind (D.evalOptional hgo value) fun v => D.jump _
  | raise value p => exact D.bind (D.evalOptional hgo value) fun v => D.fault _ p
  | attempt body caught handler p => exact D.evalAttempt hgo body caught handler
  | use path newName p =>
    exact D.bind (D.evalArg hgo path) fun v => D.bind (D.asText v _) fun s =>
      D.bind (D.loadModule hgo s _) fun m => D.after .imports fun l =>
        D.after (.setImports _) fun _ => D.pure _
  | offer name newName p =>
    refine D.after (.find? _) fun i => ?_
    split
    · exact D.fault _ _
    · exact D.after (.changeVariable _ _) fun _ => D.pure _
  | share names => exact D.bind (D.shareAll names) fun _ => D.pure _

/-! ## Scripts -/

theorem step (c : Code) : D.Holds (step go c) := by
  cases c with
  | expr e => exact D.evalExpr hgo e
  | stmt s => exact D.evalStmt hgo s
  | call f isMethod args p => exact D.callValue hgo f isMethod args p

theorem runScript (body : List Stmt) : D.Holds (runScript go body) := by
  induction body with
  | nil => exact D.pure ()
  | cons s rest ih =>
    refine D.bind (hgo (.stmt s)) fun _ => ?_
    dsimp only
    split
    · refine D.after (.find? _) fun i => ?_
      split
      · exact D.after (.variableAt? _) fun v => D.after (.addConstant _ _) fun _ => ih
      · exact ih
    · exact ih

omit hgo in
/-- **Code keeps every discipline**, however deep it is nested. -/
theorem interpret (n : Nat) (c : Code) : D.Holds (interpret n c) := by
  induction n generalizing c with
  | zero => exact D.fault .exhausted .none
  | succ n ih => exact D.step ih c

omit hgo in
/-- **A whole script keeps every discipline.** -/
theorem script (body : List Stmt) : D.Holds (Script.runScript (Script.interpret fuel) body) :=
  D.runScript (D.interpret fuel) body

end ScriptedActions.Script.Discipline
