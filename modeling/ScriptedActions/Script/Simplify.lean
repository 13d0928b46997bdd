import ScriptedActions.Script.Access
import ScriptedActions.Script.Operators
import ScriptedActions.Script.Parser

/-!
# Simpler scripts

A script is made simpler before it runs: what can be computed is computed, and what can have no
effect is left out. A statement is pure if running it changes nothing and cannot go on for ever;
reading a variable is pure, even of one that turns out not to exist, and so is a literal, but no
call, access or operator is, and no loop over values that may be no values to go through.

Of a block, pure statements are left out up to the last one, and whatever stands behind a `return`,
`throw`, `break` or `continue` goes too. A `return` at the very end of a script or function becomes
its last value. Constants with a literal value are replaced by it, operators on literals by their
value unless that is a fault, and conditions that are known choose their branch.

The functions take fuel; where it runs out, code is left as it is.
-/

set_option autoImplicit false

namespace ScriptedActions.Script

/-! ## What is pure and what is constant -/

mutual

/-- Whether an expression has a value that is known. -/
def Expr.isConstant : Expr → Bool
  | .literal _ _ => true
  | .array items _ => allConstant items
  | .template parts _ => allConstant parts
  | .map entries _ => allEntriesConstant entries
  | _ => false

/-- Whether all expressions have values that are known. -/
def allConstant : List Expr → Bool
  | [] => true
  | e :: rest => e.isConstant && allConstant rest

/-- Whether all entries have values that are known. -/
def allEntriesConstant : List (String × Expr) → Bool
  | [] => true
  | (_, e) :: rest => e.isConstant && allEntriesConstant rest

end

mutual

/-- Whether evaluating an expression has no effect. -/
def Expr.isPure : Expr → Bool
  | .literal _ _ | .var _ _ | .member _ _ _ => true
  | .array items _ | .template items _ => allPure items
  | .map entries _ => allEntriesPure entries
  | .both l r _ | .either l r _ | .orElse l r _ => l.isPure && r.isPure
  | .block body _ => allStmtsPure body
  | .closure _ shared _ => shared.isEmpty
  | _ => false

/-- Whether evaluating expressions has no effect. -/
def allPure : List Expr → Bool
  | [] => true
  | e :: rest => e.isPure && allPure rest

/-- Whether evaluating entries has no effect. -/
def allEntriesPure : List (String × Expr) → Bool
  | [] => true
  | (_, e) :: rest => e.isPure && allEntriesPure rest

/-- Whether running a statement has no effect. -/
def Stmt.isPure : Stmt → Bool
  | .nothing _ => true
  | .expr e => e.isPure
  | .branch test yes no _ => test.isPure && allStmtsPure yes && allStmtsPure no
  | .block body _ => allStmtsPure body
  | .switch subject cases _ => subject.isPure && allCasesPure cases
  | .loop (some (.literal (.bool false) _)) _ _ _ => true
  | .repetition body on (.literal (.bool b) _) _ _ => b != on && allStmtsPure body
  | .attempt body _ handler _ => allStmtsPure body && allStmtsPure handler
  | .share names => names.isEmpty
  | _ => false

/-- Whether running statements has no effect. -/
def allStmtsPure : List Stmt → Bool
  | [] => true
  | s :: rest => s.isPure && allStmtsPure rest

/-- Whether trying cases has no effect. -/
def allCasesPure : List Case → Bool
  | [] => true
  | .mk _ test action :: rest =>
    (match test with
      | some t => t.isPure
      | none => true) && action.isPure && allCasesPure rest

end

namespace Stmt

/-- Whether a statement has no effect outside the block that it stands in. -/
def isPureInside : Stmt → Bool
  | declare _ _ _ v _ => v.isPure
  | use path _ _ => path.isPure
  | offer _ _ _ => true
  | s => s.isPure

/-- Whether a statement has a value. -/
def hasValue : Stmt → Bool
  | expr _ | branch _ _ _ _ | switch _ _ _ | block _ _ => true
  | _ => false

/-- Whether nothing behind a statement is reached. -/
def isEnd : Stmt → Bool
  | leave _ _ | again _ | giveBack _ _ | raise _ _ => true
  | _ => false

/-- Whether a statement means something else in the block around its own. -/
def isBound : Stmt → Bool
  | declare _ _ _ _ _ | use _ _ _ | offer _ _ _ => true
  | expr (.call "eval" _ _ _) => true
  | expr (.block body _) => !body.isEmpty && body.all fun
    | declare _ _ _ _ _ | use _ _ _ | offer _ _ _ => true
    | _ => false
  | _ => false

end Stmt

/-- The literal of a value, if it is one that operators make of literals. -/
def literalOf? : Value → Option Literal
  | .unit => some .unit
  | .bool b => some (.bool b)
  | .int n => some (.int n)
  | .float x => some (.float x)
  | .char c => some (.char c)
  | .text s => some (.text s)
  | .range a b i => some (.range a b i)
  | _ => none

/-- Whether a literal is no array, object map, range or function. -/
def Literal.isSimple : Literal → Bool
  | .unit | .bool _ | .int _ | .float _ | .char _ | .text _ => true
  | _ => false

/-- What is known where a piece of code stands. -/
structure Knowledge where
  /-- The variables, the innermost first, and the values of those that are literal constants. -/
  declared : List (String × Option Literal)
  /-- Whether constants may be replaced: no more where `eval` may declare others. -/
  replaces : Bool
  /-- Whether something became simpler. -/
  changed : Bool
  /-- The greatest length of a text that may be computed; zero sets no limit. -/
  textSize : Nat

/-- A simplification. -/
abbrev Simplify := StateM Knowledge

namespace Simplify

/-- Notes that something became simpler. -/
def changes {α : Type} (a : α) : Simplify α := do
  modify fun k => { k with changed := true }
  pure a

/-- The value of a literal constant. -/
def constant? (name : String) : Simplify (Option Literal) := do
  let k ← get
  if !k.replaces then pure none
  else match k.declared.find? (·.1 == name) with
    | some (_, v) => pure v
    | none => pure none

/-- Notes a variable. -/
def know (name : String) (v : Option Literal) : Simplify Unit :=
  modify fun k => { k with declared := (name, v) :: k.declared }

/-- A simplification after which what it noted is forgotten. -/
def inside {α : Type} (x : Simplify α) : Simplify α := do
  let k ← get
  let a ← x
  modify fun l => { l with declared := k.declared, replaces := k.replaces }
  pure a

/-- The text of constant parts. -/
def constantText : List Expr → Option String
  | [] => some ""
  | e :: rest => do
    let l ← Parse.literal? e
    let t ← constantText rest
    pure ((Value.ofLiteral l).toText (fun _ => "") ++ t)

/-- The literal that an index finds in a literal. -/
def indexed? (e index : Expr) (p : Place) : Option Expr :=
  match e, index with
  | .array items _, .literal (.int i) _ =>
    if allPure items then (Part.position? items.length i.toInt).bind fun n => items[n]? else none
  | .map entries _, .literal (.text k) _ =>
    if allEntriesPure entries then
      some (((entries.find? (·.1 == k)).map Prod.snd).getD (.literal .unit p))
    else none
  | .literal (.int n) _, .literal (.int i) _ =>
    (Part.position? 64 i.toInt).bind fun b =>
      (literalOf? (Part.get (.int n) (.bit b))).map fun l => .literal l p
  | .literal (.text s) _, .literal (.int i) _ =>
    (Part.position? s.length i.toInt).bind fun n =>
      (literalOf? (Part.get (.text s) (.char n))).map fun l => .literal l p
  | _, _ => none

/-- The value of an operator on literals. -/
def folded? (textSize : Nat) (op : String) (a b : Literal) (p : Place) : Option Expr :=
  if !a.isSimple || !b.isSimple then none
  else match Operator.binary (fun _ => "") op (Value.ofLiteral a) (Value.ofLiteral b) with
    | some (.ok v) =>
      if textSize ≠ 0 && textSize < v.size.bytes then none
      else (literalOf? v).map fun l => .literal l p
    | _ => none

/-- Neighbouring texts of a template as one, without the units and the empty texts. -/
def mergeParts : List Expr → List Expr
  | [] => []
  | .literal (.text s) p :: rest =>
    match mergeParts rest with
    | .literal (.text t) _ :: more => .literal (.text (s ++ t)) p :: more
    | more => if s.isEmpty && !more.isEmpty then more else .literal (.text s) p :: more
  | .literal .unit p :: rest =>
    match mergeParts rest with
    | [] => [.literal .unit p]
    | more => more
  | e :: rest => e :: mergeParts rest

/-- The statements up to the first one behind which nothing is reached. -/
def reached : List Stmt → List Stmt
  | [] => []
  | s :: rest => if s.isEnd then [s] else s :: reached rest

/-- The statements with blocks opened that declare nothing. -/
def opened : Nat → List Stmt → List Stmt
  | 0, body => body
  | _, [] => []
  | n + 1, .block inner p :: rest =>
    if inner.any Stmt.isBound then .block inner p :: opened n rest
    else opened n (inner ++ rest)
  | n + 1, s :: rest => s :: opened n rest

/-- Whether a statement keeps what stands in front of it from being left out. -/
def isAnchor (isPure : Stmt → Bool) (s : Stmt) : Bool :=
  !isPure s || match s with
    | .declare _ _ _ v _ => v.isConstant
    | .expr e => !e.isConstant
    | .use path _ _ => !path.isConstant
    | _ => false

/-- The statements without the pure ones; `keepLast` keeps the last one whatever it is. Statements
behind the last anchor count as pure by `isPure`, those in front of it if they really are. -/
def withoutPure (isPure : Stmt → Bool) (keepLast : Bool) (body : List Stmt) : List Stmt :=
  let anchor := (body.reverse.findIdx? (isAnchor isPure)).elim 0 fun n => body.length - n - 1
  let kept := (body.zipIdx).filter fun (s, i) =>
    (keepLast && i + 1 == body.length) ||
      !(if anchor ≤ i then isPure s else s.isPure)
  kept.map Prod.fst

/-- The statements without those at the end that have neither effect nor value; `last` holds them
in reverse. -/
def trimmedValue (isPure : Stmt → Bool) (reduceReturn : Bool) : Nat → List Stmt → List Stmt
  | 0, last => last
  | n + 1, last =>
    match last with
    | [.giveBack none _] => if reduceReturn then [] else last
    | .giveBack none p :: before :: rest =>
      if reduceReturn then
        if before.hasValue then trimmedValue isPure reduceReturn n (.nothing p :: before :: rest)
        else trimmedValue isPure reduceReturn n (before :: rest)
      else last
    | .giveBack (some e) _ :: rest =>
      if reduceReturn then trimmedValue isPure reduceReturn n (.expr e :: rest) else last
    | [s] => if !s.hasValue && isPure s then [] else last
    | .nothing _ :: before :: rest =>
      if before.hasValue then last
      else trimmedValue isPure reduceReturn n (before :: rest)
    | s :: before :: rest =>
      if !s.hasValue && isPure s then
        if before.hasValue then .nothing .none :: before :: rest
        else trimmedValue isPure reduceReturn n (before :: rest)
      else last
    | [] => []

/-- The statements without those at the end that have no effect; `last` holds them in reverse. -/
def trimmed (isPure : Stmt → Bool) (reduceReturn : Bool) : Nat → List Stmt → List Stmt
  | 0, last => last
  | n + 1, last =>
    match last with
    | .giveBack none p :: rest =>
      if reduceReturn then trimmed isPure reduceReturn n rest else .giveBack none p :: rest
    | .giveBack (some e) p :: rest =>
      if reduceReturn && e.isPure then trimmed isPure reduceReturn n rest
      else .giveBack (some e) p :: rest
    | s :: rest => if isPure s then trimmed isPure reduceReturn n rest else s :: rest
    | [] => []

/-! ## The passes -/

mutual

/-- A simpler expression. -/
def expr : Nat → Expr → Simplify Expr
  | 0, e => pure e
  | fuel + 1, e => do
    match e with
    | .literal _ _ | .member _ _ _ | .this _ => pure e
    | .var name p =>
      match ← constant? name with
      | some l => changes (.literal l p)
      | none => pure e
    | .template parts p =>
      match constantText parts with
      | some s => changes (.literal (.text s) p)
      | none => do
        let parts := mergeParts (← exprs fuel parts)
        pure (.template parts p)
    | .array items p =>
      match if e.isConstant then Parse.literal? e else none with
      | some l => changes (.literal l p)
      | none => do pure (.array (← exprs fuel items) p)
    | .map entries p =>
      match if e.isConstant then Parse.literal? e else none with
      | some l => changes (.literal l p)
      | none => do pure (.map (← fields fuel entries) p)
    | .operator op operands p =>
      match op, operands with
      | "!", [.literal (.bool b) _] => changes (.literal (.bool (!b)) p)
      | _, [a, b] =>
        match if op == "contains" then none else Parse.literal? a, Parse.literal? b with
        | some l, some r =>
          match folded? (← get).textSize op l r p with
          | some e => changes e
          | none => do pure (.operator op (← exprs fuel operands) p)
        | _, _ => do pure (.operator op (← exprs fuel operands) p)
      | _, _ => do pure (.operator op (← exprs fuel operands) p)
    | .both l r p =>
      match l, r with
      | .literal (.bool true) _, r => do changes (← expr fuel r)
      | .literal (.bool false) q, _ => changes (.literal (.bool false) q)
      | l, .literal (.bool true) _ => do changes (← expr fuel l)
      | l, r => do pure (.both (← expr fuel l) (← expr fuel r) p)
    | .either l r p =>
      match l, r with
      | .literal (.bool false) _, r => do changes (← expr fuel r)
      | .literal (.bool true) q, _ => changes (.literal (.bool true) q)
      | l, .literal (.bool false) _ => do changes (← expr fuel l)
      | l, r => do pure (.either (← expr fuel l) (← expr fuel r) p)
    | .orElse l r p =>
      match l with
      | .literal .unit _ => do changes (← expr fuel r)
      | l =>
        if l.isConstant then do changes (← expr fuel l)
        else do pure (.orElse (← expr fuel l) (← expr fuel r) p)
    | .call name args captures p =>
      match name, args with
      | "eval", args => do
        modify fun k => { k with replaces := false }
        pure (.call name args captures p)
      | "Fn", [.literal (.text s) _] =>
        if isName s then changes (.literal (.fn s) p) else pure e
      | "type_of", [a] =>
        match Parse.literal? a with
        | some l => changes (.literal (.text (Value.ofLiteral l).typeName) p)
        | none => do pure (.call name (← exprs fuel args) captures p)
      | name, args => do pure (.call name (← exprs fuel args) captures p)
    | .memberCall path name args p => do pure (.memberCall path name (← exprs fuel args) p)
    | .chain root links =>
      match root, links with
      | .map entries q, [.field name _ _ _] =>
        if allEntriesPure entries then
          changes (((entries.find? (·.1 == name)).map Prod.snd).getD (.literal .unit q))
        else do pure (.chain (← expr fuel root) links)
      | root, [.index i dot l] =>
        match indexed? root i root.place with
        | some e => changes e
        | none => do
          let root ← accessRoot fuel root
          pure (.chain root [.index (← expr fuel i) dot l])
      | root, [.method "type_of" [] p dot l] =>
        match Parse.literal? root with
        | some v => changes (.literal (.text (Value.ofLiteral v).typeName) p)
        | none => do pure (.chain (← accessRoot fuel root) [.method "type_of" [] p dot l])
      | root, links => do
        let root ← accessRoot fuel root
        pure (.chain root (← accessLinks fuel links))
    | .block body p =>
      match body with
      | [] => changes (.literal .unit p)
      | [.expr e] => do changes (← expr fuel e)
      | body => do
        match ← block fuel true true false body with
        | [.expr e] => changes e
        | body => pure (.block body p)
    | .closure f shared p => do
      let k ← get
      let body := (block fuel true false true f.body).run
        { k with declared := [], replaces := true, changed := false }
      pure (.closure (f.withBody body.1) shared p)

/-- Simpler expressions. -/
def exprs : Nat → List Expr → Simplify (List Expr)
  | 0, l => pure l
  | _, [] => pure []
  | fuel + 1, e :: rest => do
    let e ← expr fuel e
    pure (e :: (← exprs fuel rest))

/-- Simpler entries. -/
def fields : Nat → List (String × Expr) → Simplify (List (String × Expr))
  | 0, l => pure l
  | _, [] => pure []
  | fuel + 1, (k, e) :: rest => do
    let e ← expr fuel e
    pure ((k, e) :: (← fields fuel rest))

/-- A simpler root of an access; a variable stays what it is. -/
def accessRoot : Nat → Expr → Simplify Expr
  | 0, e => pure e
  | fuel + 1, e =>
    match e with
    | .var _ _ | .this _ => pure e
    | e => expr fuel e

/-- Simpler links of an access. -/
def accessLinks : Nat → List Link → Simplify (List Link)
  | 0, l => pure l
  | _, [] => pure []
  | fuel + 1, l :: rest => do
    let l ← match l with
      | .field _ _ _ _ => pure l
      | .method name args p dot lenient => do
        pure (.method name (← exprs fuel args) p dot lenient)
      | .index e dot lenient => do pure (.index (← expr fuel e) dot lenient)
    pure (l :: (← accessLinks fuel rest))

/-- Simpler cases. A case that never holds is left out. -/
def caseList : Nat → List Case → Simplify (List Case)
  | 0, l => pure l
  | _, [] => pure []
  | fuel + 1, .mk values test action :: rest => do
    let test ← match test with
      | some t => do pure (some (← expr fuel t))
      | none => pure none
    let action ← expr fuel action
    let rest ← caseList fuel rest
    match test with
    | some (.literal (.bool false) _) => pure rest
    | some (.literal (.bool true) _) => pure (.mk values none action :: rest)
    | _ => pure (.mk values test action :: rest)

/-- A simpler statement; `keepValue` tells that its value matters. -/
def stmt : Nat → Bool → Stmt → Simplify Stmt
  | 0, _, s => pure s
  | fuel + 1, keepValue, s => do
    match s with
    | .assign none (.var x q) (.operator op [.var y r, b] p) _ =>
      if x == y && Parse.assignOperator (op ++ "=") == some op then
        changes (.assign (some op) (.var x q) b p)
      else do
        pure (.assign none (.var x q) (← expr fuel (.operator op [.var y r, b] p)) p)
    | .assign op target value p => do
      let target ← match target with
        | .chain root links => do pure (.chain root (← accessLinks fuel links))
        | t => pure t
      pure (.assign op target (← expr fuel value) p)
    | .branch test [] [] _ => do
      let e ← expr fuel test
      changes (if keepValue then .block [.expr e, .nothing e.start] e.start else .expr e)
    | .branch (.literal (.bool false) q) _ [] _ => changes (.nothing q)
    | .branch (.literal (.bool b) q) yes no _ => do
      match ← block fuel keepValue true false (if b then yes else no) with
      | [] => changes (.nothing q)
      | body => changes (.block body q)
    | .branch test yes no p => do
      let test ← expr fuel test
      let yes ← block fuel keepValue true false yes
      pure (.branch test yes (← block fuel keepValue true false no) p)
    | .switch subject cases p => do
      pure (.switch (← expr fuel subject) (← caseList fuel cases) p)
    | .loop (some (.literal (.bool false) q)) _ _ _ => changes (.nothing q)
    | .loop test body inner p => do
      let test ← match test with
        | none | some (.literal (.bool true) _) => pure none
        | some t => do pure (some (← expr fuel t))
      pure (.loop test (← block fuel false true false body) inner p)
    | .repetition body on test inner p => do
      let test ← expr fuel test
      pure (.repetition (← block fuel false true false body) on test inner p)
    | .each name counter items body inner p => do
      let items ← expr fuel items
      let body ← inside do
        know name.text none
        match counter with
        | some c => know c.text none
        | none => pure ()
        block fuel false true false body
      pure (.each name counter items body inner p)
    | .declare constant exported name value p => do
      pure (.declare constant exported name (← expr fuel value) p)
    | .use path newName p => do pure (.use (← expr fuel path) newName p)
    | .block body p => do
      match ← block fuel keepValue true false body with
      | [] => changes (.nothing p)
      | [s] => if s.isBound then pure (.block [s] p) else changes s
      | body => pure (.block body p)
    | .attempt body caught handler p =>
      if allStmtsPure body then do changes (.block (← block fuel false true false body) p)
      else do
        let body ← block fuel false true false body
        let handler ← inside do
          match caught with
          | some n => know n.text none
          | none => pure ()
          block fuel false true false handler
        pure (.attempt body caught handler p)
    | .expr (.block [] p) => changes (.nothing p)
    | .expr (.block body p) => do
      match ← block fuel true true false body with
      | [] => changes (.nothing p)
      | body => changes (.block body p)
    | .expr e => do pure (.expr (← expr fuel e))
    | .leave (some e) p => do pure (.leave (some (← expr fuel e)) p)
    | .giveBack (some e) p => do pure (.giveBack (some (← expr fuel e)) p)
    | .raise (some e) p => do pure (.raise (some (← expr fuel e)) p)
    | .share [] => changes (.nothing .none)
    | s => pure s

/-- Simpler statements, one after the other; declarations are noted. -/
def stmts : Nat → Bool → List Stmt → Simplify (List Stmt)
  | 0, _, l => pure l
  | _, _, [] => pure []
  | fuel + 1, keepValue, s :: rest => do
    let s ← stmt fuel keepValue s
    match s with
    | .declare constant _ name value _ =>
      know name.text (if constant && value.isConstant then Parse.literal? value else none)
    | _ => pure ()
    pure (s :: (← stmts fuel keepValue rest))

/-- Simpler statements of a block: those inside a block of the script, if `isInner`. `keepValue`
tells that the value of the block matters, and `reduceReturn` that it is the end of a function. -/
def block : Nat → Bool → Bool → Bool → List Stmt → Simplify (List Stmt)
  | 0, _, _, _, body => pure body
  | fuel + 1, keepValue, isInner, reduceReturn, body => do
    let isPure := if isInner then Stmt.isPureInside else Stmt.isPure
    let before := (← get).changed
    modify fun k => { k with changed := false }
    let body := opened (fuel + 1) body
    let found := reached body
    let body ← inside (stmts fuel keepValue found)
    let kept := withoutPure isPure keepValue body
    let short := (if keepValue then trimmedValue isPure reduceReturn (kept.length + 1) kept.reverse
      else trimmed isPure reduceReturn (kept.length + 1) kept.reverse).reverse
    let now := (← get).changed || short.length != body.length
    if now then
      let body ← block fuel keepValue isInner reduceReturn short
      changes body
    else
      modify fun k => { k with changed := before }
      pure short

end

end Simplify

/-- More fuel than the nesting of a script and the rounds of its simplification need. -/
def Simplify.fuel : Nat := 100000

/-- The statements of a script or function, simplified. -/
def simplifiedBody (limits : Limits) (body : List Stmt) : List Stmt :=
  ((Simplify.block Simplify.fuel true false true body).run ⟨[], true, false, limits.textSize⟩).1

/-- The script with its statements and functions simplified. -/
def Program.simplified (limits : Limits) (p : Program) : Program :=
  ⟨simplifiedBody limits p.body,
    p.functions.map fun f => f.withBody (simplifiedBody limits f.body)⟩

end ScriptedActions.Script
