import ScriptedActions.Script.CompileFault
import ScriptedActions.Script.Lexer
import ScriptedActions.Script.Limits
import ScriptedActions.Script.Syntax

/-!
# From tokens to syntax

`Program.parse` reads the statements and functions of a script. The parser knows which
variables the script has declared so far: it refuses to assign to a constant, and it finds the
variables that a closure shares with the code around it, which are those it uses and does not
declare itself.

Every expression counts how deep it is nested. Brackets, calls, accesses and operators each add
to the depth, and an expression deeper than the limit is refused where it gets too deep.

All functions take the fuel first; `Program.parse` starts with more of it than a script of that
many words can use.
-/

set_option autoImplicit false

namespace ScriptedActions.Script

/-- What the parser knows at some point of a script. -/
structure ParseState where
  /-- The words that are left; the last one is the end of the script. -/
  words : List Word
  /-- The declared variables and whether they are constant, the innermost first. -/
  declared : List (String × Bool)
  /-- The variables that are used and not declared, in the order of their first use. -/
  outside : List Name
  /-- Whether the next name counts as a use of a variable. -/
  captures : Bool
  /-- The functions that are defined, the last one first. -/
  functions : List Function

/-- Where an expression or statement stands. -/
structure Context where
  limits : Limits
  depth : Nat
  maxDepth : Nat
  /-- Where the construct around it starts. -/
  place : Place
  global : Bool
  inFunction : Bool
  breakable : Bool
  /-- Whether a bar separates the values of a switch case here. -/
  barred : Bool

/-- A parser. -/
abbrev Parse := EStateM CompileError ParseState

namespace Parse

/-- Refuses the script. -/
def fail {α : Type} (f : CompileFault) (p : Place) : Parse α := throw ⟨f, p⟩

/-- The word that comes next. -/
def peek : Parse Word := fun s => .ok (s.words.headD ⟨.eof, .none⟩) s

/-- Takes the next word. -/
def next : Parse Word := fun s =>
  match s.words with
  | [] => .ok ⟨.eof, .none⟩ s
  | [w] => .ok w s
  | w :: rest => .ok w { s with words := rest }

/-- Whether a word is a given symbol. -/
def isSymbol (w : Word) (s : String) : Bool :=
  match w.token with
  | .symbol t => t == s
  | _ => false

/-- Whether the script is at its end. -/
def isEnd (w : Word) : Bool :=
  match w.token with
  | .eof => true
  | _ => false

/-- Takes the next word if it is a given symbol. -/
def accept (s : String) : Parse Bool := do
  if isSymbol (← peek) s then let _ ← next; pure true else pure false

/-- Refuses the script at a word: for its own fault, or because another token is missing. -/
def failAt {α : Type} (w : Word) (f : CompileFault) : Parse α :=
  match w.token with
  | .bad b => fail (.word b) w.place
  | _ => fail f w.place

/-- Takes a symbol that must come next. -/
def expect (s purpose : String) : Parse Place := do
  let w ← next
  if isSymbol w s then pure w.place else failAt w (.missing s purpose)

/-- The name of a variable. -/
def variableName : Parse Name := do
  let w ← next
  match w.token with
  | .name n => pure ⟨n, w.place⟩
  | .reserved r => if isName r then fail (.reserved r) w.place else fail .variableExpected w.place
  | _ => failAt w .variableExpected

/-- One level deeper, at a place. -/
def deeperAt (c : Context) (p : Place) : Parse Context :=
  if c.maxDepth ≠ 0 && c.maxDepth < c.depth + 1 then fail .tooDeep p
  else pure { c with depth := c.depth + 1, place := p }

/-- One level deeper. -/
def deeper (c : Context) : Parse Context := deeperAt c c.place

/-- Declares a variable. -/
def declare (name : String) (constant : Bool) : Parse Unit :=
  modify fun s => { s with declared := (name, constant) :: s.declared }

/-- Forgets the variables declared inside. -/
def inside {α : Type} (p : Parse α) : Parse α := do
  let outer := (← get).declared
  let a ← p
  modify fun s => { s with declared := outer }
  pure a

/-- Notes the use of a variable. -/
def note (n : Name) : Parse Unit := modify fun s =>
  if s.captures then
    let known := s.declared.any (·.1 == n.text) || s.functions.any (·.name == n.text) ||
      s.outside.any (·.text == n.text)
    if known then s else { s with outside := s.outside ++ [n] }
  else { s with captures := true }

/-! ## Checks -/

/-- What a literal is, where a truth value is wanted. -/
def notBool : Expr → Option String
  | .literal l _ =>
    match l with
    | .unit => some "()"
    | .int _ | .float _ => some "a number"
    | .char _ => some "a character"
    | .text _ => some "a string"
    | .array _ => some "an array"
    | .map _ => some "an object map"
    | _ => none
  | .template _ _ => some "a string"
  | .array _ _ => some "an array"
  | .map _ _ => some "an object map"
  | _ => none

/-- Refuses an expression that is surely no truth value. -/
def needBool (e : Expr) : Parse Expr :=
  match notBool e with
  | some actual => fail (.wrongType "a boolean expression" actual) e.start
  | none => pure e

/-- What an expression is that surely cannot be iterated over. -/
def notIterable : Expr → Option String
  | .literal l _ =>
    match l with
    | .unit => some "()"
    | .bool _ => some "a boolean"
    | .int _ | .float _ => some "a number"
    | .char _ => some "a character"
    | _ => none
  | .both _ _ _ | .either _ _ _ => some "a boolean"
  | _ => none

/-- Refuses an expression that surely cannot be iterated over. -/
def needIterable (e : Expr) : Parse Expr :=
  match notIterable e with
  | some actual => fail (.wrongType "an iterable value" actual) e.start
  | none => pure e

/-- Refuses a block where an expression must start. -/
def needExpr (kind : String) : Parse Unit := do
  let w ← peek
  if isSymbol w "\x7b" || isEnd w then fail (.expressionExpected kind) w.place

/-- Refuses an assignment behind a condition. -/
def noAssignment : Parse Unit := do
  let w ← peek
  if isSymbol w "=" then fail (.word (.improper "Possibly a typo of '=='?")) w.place

/-- Refuses an index that no array, text or object map has. -/
def checkIndex (e index : Expr) : Parse Unit :=
  match e with
  | .map _ _ => report "Object map expects string index, not "
      (if isText then none else kind "a number" "a float")
  | .literal (.int _) _ | .literal (.text _) _ | .array _ _ | .template _ _ =>
    if isText then
      fail (.badIndex "Array, string or bit-field expects numeric index, not a string") index.start
    else report "Array, string or bit-field expects integer index, not "
      (if isInt then none else kind "" "a float")
  | _ => pure ()
where
  /-- Whether the index is a text. -/
  isText : Bool := match index with
    | .literal (.text _) _ | .template _ _ => true
    | _ => false
  /-- Whether the index is a whole number. -/
  isInt : Bool := match index with
    | .literal (.int _) _ => true
    | _ => false
  /-- What the index is, if it is a literal. -/
  kind (int float : String) : Option String := match index with
    | .literal (.int _) _ => some int
    | .literal (.float _) _ => some float
    | .literal (.char _) _ => some "a character"
    | .literal .unit _ => some "()"
    | .literal (.bool _) _ | .both _ _ _ | .either _ _ _ => some "a boolean"
    | _ => none
  /-- Refuses the index. -/
  report (advice : String) (k : Option String) : Parse Unit := match k with
    | some k => fail (.badIndex (advice ++ k)) index.start
    | none => pure ()

/-- Whether an expression is a value known to the parser. -/
def isConstant : Expr → Bool
  | .literal _ _ => true
  | _ => false

mutual

/-- The value of an expression that is made of literals only. -/
def literal? : Expr → Option Literal
  | .literal l _ => some l
  | .array items _ => (literals? items).map .array
  | .map entries _ => (literalEntries? entries).map .map
  | .operator op [.literal (.int a) _, .literal (.int b) _] _ =>
    if op == ".." then some (.range a b false)
    else if op == "..=" then some (.range a b true)
    else none
  | _ => none

/-- The values of expressions that are made of literals only. -/
def literals? : List Expr → Option (List Literal)
  | [] => some []
  | e :: rest => do pure ((← literal? e) :: (← literals? rest))

/-- The entries of an object map that is made of literals only. -/
def literalEntries? : List (String × Expr) → Option (List (String × Literal))
  | [] => some []
  | (k, e) :: rest => do pure ((k, ← literal? e) :: (← literalEntries? rest))

end

/-- The largest range in a switch that stands for its numbers one by one. -/
def shortRange : Int := 16

/-- How strongly an operator binds; zero is no operator. -/
def precedence : String → Nat
  | "||" | "^" | "|" => 30
  | "&&" | "&" => 60
  | "==" | "!=" => 90
  | "in" | "!in" => 110
  | "<" | "<=" | ">" | ">=" => 130
  | "??" => 135
  | ".." | "..=" => 140
  | "+" | "-" => 150
  | "*" | "/" | "%" => 180
  | "**" => 190
  | "<<" | ">>" => 210
  | _ => 0

/-- The operator of an assignment that combines values. -/
def assignOperator : String → Option String
  | "+=" => some "+"
  | "-=" => some "-"
  | "*=" => some "*"
  | "/=" => some "/"
  | "%=" => some "%"
  | "**=" => some "**"
  | "<<=" => some "<<"
  | ">>=" => some ">>"
  | "&=" => some "&"
  | "|=" => some "|"
  | "^=" => some "^"
  | _ => none

/-- The expression of an operator between two operands. -/
def binary (op : String) (l r : Expr) (p : Place) : Parse Expr :=
  match op with
  | "||" => do
    let r ← needBool r
    pure (.either (← needBool l) r p)
  | "&&" => do
    let r ← needBool r
    pure (.both (← needBool l) r p)
  | "??" => pure (.orElse l r p)
  | "in" => pure (.operator "contains" [r, l] p)
  | "!in" => pure (.operator "!" [.operator "contains" [r, l] p] p)
  | "==" | "<" | "<=" | ">" | ">=" => pure (.operator op [l, r] l.start)
  | _ => pure (.operator op [l, r] p)

/-- The first method call among the links of an access. -/
def methodPlace : List Link → Option Place
  | [] => none
  | .method _ _ p _ _ :: _ => some p
  | _ :: rest => methodPlace rest

/-- An assignment, if its left side can be assigned to. -/
def assignment (op : Option String) (target value : Expr) (p : Place) : Parse Stmt := do
  match target with
  | .this _ => pure ()
  | .var name q =>
    match (← get).declared.find? (·.1 == name) with
    | some (_, true) => fail (.constantAssigned name) q
    | _ => pure ()
  | .chain root links =>
    match methodPlace links, root with
    | some q, _ => fail .notAssignable q
    | none, .var _ _ | none, .this _ => pure ()
    | none, e => fail .notAssignable e.place
  | .both _ _ _ | .either _ _ _ | .orElse _ _ _ =>
    if op.isNone then fail (.word (.improper "Possibly a typo of '=='?")) p
    else fail .notAssignable target.place
  | e =>
    if (literal? e).isSome then fail (.constantAssigned "") e.start
    else fail .notAssignable e.place
  pure (.assign op target value p)

/-- Whether a statement ends without a semicolon. -/
def endsItself : Stmt → Bool
  | .branch _ _ _ _ | .switch _ _ _ | .loop _ _ _ _ | .each _ _ _ _ _ _ | .block _ _
  | .attempt _ _ _ _ => true
  | _ => false

/-- Whether a statement is empty. -/
def isNothing : Stmt → Bool
  | .nothing _ => true
  | _ => false

/-- A negated literal number. -/
def negated (e : Expr) (p : Place) : Expr :=
  match e with
  | .literal (.int n) _ =>
    if n = Int64.minValue then .literal (.float (9223372036854775808.0)) p
    else .literal (.int (-n)) p
  | .literal (.float x) _ => .literal (.float (-x)) p
  | e => .operator "-" [e] p

/-! ## Expressions and statements -/

mutual

/-- An expression. -/
def expr : Nat → Context → Parse Expr
  | 0, c => fail .tooDeep c.place
  | fuel + 1, c => do
    let c := { c with place := (← peek).place }
    let l ← unary fuel (← deeper c)
    operators fuel (← deeper c) 1 l

/-- The operators behind an operand, as far as they bind at least as strongly as `least`. -/
def operators : Nat → Context → Nat → Expr → Parse Expr
  | 0, c, _, _ => fail .tooDeep c.place
  | fuel + 1, c, least, l => do
    let w ← peek
    let op ← match w.token with
      | .symbol s => pure (if c.barred && s == "|" then "" else s)
      | .reserved r => if isName r then pure "" else fail (.unknownOperator r) w.place
      | _ => pure ""
    let strength := precedence op
    let rightward := op == "**"
    if strength < least || (strength == least && !rightward) || strength == 0 then pure l
    else
      let _ ← next
      let r ← unary fuel { c with place := w.place }
      let after := match (← peek).token with
        | .symbol s => if c.barred && s == "|" then 0 else precedence s
        | _ => 0
      let r ← if strength < after || (strength == after && rightward)
        then operators fuel (← deeperAt c w.place) strength r else pure r
      let c ← deeperAt c w.place
      operators fuel c least (← binary op l r w.place)

/-- An operand with the signs in front of it. -/
def unary : Nat → Context → Parse Expr
  | 0, c => fail .tooDeep c.place
  | fuel + 1, c => do
    let w ← peek
    let c := { c with place := w.place }
    match w.token with
    | .eof => fail .incomplete w.place
    | .symbol "-" => do
      let _ ← next
      pure (negated (← unary fuel (← deeper c)) w.place)
    | .symbol "+" => do
      let _ ← next
      match ← unary fuel (← deeper c) with
      | e@(.literal (.int _) _) | e@(.literal (.float _) _) => pure e
      | e => pure (.operator "+" [e] w.place)
    | .symbol "!" => do
      let _ ← next
      pure (.operator "!" [← unary fuel (← deeper c)] w.place)
    | _ => primary fuel c

/-- An operand without signs. -/
def primary : Nat → Context → Parse Expr
  | 0, c => fail .tooDeep c.place
  | fuel + 1, c => do
    let w ← peek
    let c := { c with place := w.place }
    match w.token with
    | .int n => let _ ← next; links fuel c (.literal (.int n) w.place) []
    | .float x => let _ ← next; links fuel c (.literal (.float x) w.place) []
    | .char x => let _ ← next; links fuel c (.literal (.char x) w.place) []
    | .text s => let _ ← next; links fuel c (.literal (.text s) w.place) []
    | .template s =>
      let c ← deeper c
      let _ ← next
      let start := if s.isEmpty then [] else [.literal (.text s) w.place]
      let parts ← templateParts fuel c start
      links fuel c (match parts with
        | [] => .literal (.text "") w.place
        | parts => .template parts w.place) []
    | .name n =>
      let _ ← next
      let after ← peek
      match after.token with
      | .symbol s =>
        if s == "(" || s == "()" || s == "!" || s == "::" then
          modify fun st => { st with captures := true }
        else note ⟨n, w.place⟩
      | _ => note ⟨n, w.place⟩
      links fuel c (.var n w.place) []
    | .reserved r =>
      let _ ← next
      let after ← peek
      if callableWords.contains r && (isSymbol after "(" || isSymbol after "()" || isSymbol after "!")
      then links fuel c (.var r w.place) []
      else if r == "this" then
        if c.inFunction then links fuel c (.this w.place) []
        else fail (.word (.improper "'this' can only be used in functions")) w.place
      else fail (.reserved r) w.place
    | .bad f => fail (.word f) w.place
    | .eof => fail .incomplete w.place
    | .symbol s =>
      match s with
      | "true" => let _ ← next; links fuel c (.literal (.bool true) w.place) []
      | "false" => let _ ← next; links fuel c (.literal (.bool false) w.place) []
      | "()" => let _ ← next; links fuel c (.literal .unit w.place) []
      | "(" =>
        let _ ← next
        if ← accept ")" then links fuel c (.literal .unit w.place) []
        else
          let c' ← deeper c
          let e ← expr fuel { c' with barred := false }
          let _ ← expect ")" "for a matching ( in this expression"
          links fuel c e []
      | "[" =>
        let c' ← deeper c
        let _ ← next
        let items ← arrayItems fuel { c' with barred := false } []
        links fuel c (.array items w.place) []
      | "#\x7b" =>
        let c' ← deeper c
        let _ ← next
        let entries ← mapEntries fuel { c' with barred := false } []
        links fuel c (.map entries w.place) []
      | "\x7b" =>
        let (body, p) ← block fuel (← deeper c)
        links fuel c (.block body p) []
      | "if" | "while" | "loop" | "do" | "for" | "switch" =>
        let st ← controlStmt fuel (← deeper c) s
        links fuel c (.block [st] w.place) []
      | "|" | "||" =>
        let e ← closure fuel c
        links fuel c e []
      | _ => fail (.unexpected s) w.place

/-- The blocks and pieces of a template, the last one first. -/
def templateParts : Nat → Context → List Expr → Parse (List Expr)
  | 0, c, _ => fail .tooDeep c.place
  | fuel + 1, c, done => do
    let (body, p) ← block fuel c
    let done := .block body p :: done
    let w ← next
    match w.token with
    | .text s => pure (if s.isEmpty then done.reverse else (.literal (.text s) w.place :: done).reverse)
    | .template s =>
      templateParts fuel c (if s.isEmpty then done else .literal (.text s) w.place :: done)
    | _ => failAt w .incomplete

/-- The items of an array, the last one first, and its end. -/
def arrayItems : Nat → Context → List Expr → Parse (List Expr)
  | 0, c, _ => fail .tooDeep c.place
  | fuel + 1, c, done => do
    let w ← peek
    if c.limits.arraySize ≠ 0 && c.limits.arraySize ≤ done.length then
      fail (.literalTooLarge "Size of array literal" c.limits.arraySize) w.place
    else if isSymbol w "]" then let _ ← next; pure done.reverse
    else if isEnd w then fail (.missing "]" "to end this array literal") w.place
    else
      let e ← expr fuel (← deeper c)
      let w ← peek
      if isSymbol w "," then let _ ← next; arrayItems fuel c (e :: done)
      else if isSymbol w "]" then arrayItems fuel c (e :: done)
      else if isEnd w then fail (.missing "]" "to end this array literal") w.place
      else failAt w (.missing "," "to separate the items of this array literal")

/-- The entries of an object map, the last one first, and its end. -/
def mapEntries : Nat → Context → List (String × Expr) → Parse (List (String × Expr))
  | 0, c, _ => fail .tooDeep c.place
  | fuel + 1, c, done => do
    let purpose := "to end this object map literal"
    let w ← next
    let entry (name : String) : Parse (List (String × Expr)) := do
      if done.any (·.1 == name) then fail (.duplicateProperty name) w.place
      else
        let _ ← expect ":" ("to follow the property '" ++ name ++ "' in this object map literal")
        if c.limits.mapSize ≠ 0 && c.limits.mapSize ≤ done.length then
          fail (.literalTooLarge "Number of properties in object map literal" c.limits.mapSize)
            (← peek).place
        else
          let e ← expr fuel (← deeper c)
          let w ← peek
          match w.token with
          | .symbol "," => let _ ← next; mapEntries fuel c ((name, e) :: done)
          | .symbol "\x7d" => mapEntries fuel c ((name, e) :: done)
          | .name _ => fail (.missing "," "to separate the items of this object map literal") w.place
          | _ => failAt w (.missing "\x7d" purpose)
    match w.token with
    | .symbol "\x7d" => pure done.reverse
    | .name n => entry n
    | .text n => entry n
    | .template _ => fail .propertyExpected w.place
    | .reserved r => if isName r then fail (.reserved r) w.place else other w purpose done
    | .bad f => fail (.word f) w.place
    | .eof => fail (.missing "\x7d" purpose) w.place
    | _ => other w purpose done
where
  /-- Refuses what is no name of a property. -/
  other (w : Word) (purpose : String) (done : List (String × Expr)) :
      Parse (List (String × Expr)) :=
    if done.isEmpty then fail (.missing "\x7d" purpose) w.place
    else fail .propertyExpected w.place

/-- The accesses and calls behind an operand; `done` holds its links, the last one first. -/
def links : Nat → Context → Expr → List Link → Parse Expr
  | 0, c, _, _ => fail .tooDeep c.place
  | fuel + 1, c, root, done => do
    let whole : Expr := if done.isEmpty then root else .chain root done.reverse
    let w ← peek
    match w.token with
    | .symbol "[" => indexLink fuel c root done w false
    | .symbol "?[" => indexLink fuel c root done w true
    | .symbol "." => dotLink fuel c root done w false
    | .symbol "?." => dotLink fuel c root done w true
    | .symbol s =>
      match done, root with
      | [], .var name p =>
        if s == "(" || s == "()" then
          let _ ← next
          let args ← if s == "()" then pure [] else arguments fuel { c with place := p } name
          links fuel c (.call name args false p) []
        else if s == "!" then
          let _ ← next
          let paren ← peek
          if isSymbol paren "()" then
            let _ ← next
            links fuel c (.call name [] true p) []
          else
            let _ ← expect "(" "to start arguments list of function call"
            let args ← arguments fuel { c with place := p } name
            links fuel c (.call name args true p) []
        else if s == "::" then
          let _ ← next
          let n ← variableName
          links fuel c (.member [⟨name, p⟩] n.text n.place) []
        else pure whole
      | [], .member path name p =>
        if s == "(" || s == "()" then
          let _ ← next
          let args ← if s == "()" then pure [] else arguments fuel { c with place := p } name
          links fuel c (.memberCall path name args p) []
        else if s == "!" then
          let _ ← next
          let _ ← expect "(" "to start arguments list of function call"
          fail (.word (.improper "'!' cannot be used to call module functions")) w.place
        else if s == "::" then
          let _ ← next
          let n ← variableName
          links fuel c (.member (path ++ [⟨name, p⟩]) n.text n.place) []
        else pure whole
      | _, _ => pure whole
    | _ => pure whole

/-- An index behind an operand. -/
def indexLink : Nat → Context → Expr → List Link → Word → Bool → Parse Expr
  | 0, c, _, _, _, _ => fail .tooDeep c.place
  | fuel + 1, c, root, done, w, lenient => do
    let _ ← next
    let c' ← deeperAt c w.place
    let e ← expr fuel { (← deeper c') with barred := false }
    if done.isEmpty then checkIndex root e
    let _ ← expect "]" "for a matching [ in this index expression"
    links fuel c root (.index e w.place lenient :: done)

/-- A property or a method call behind an operand. -/
def dotLink : Nat → Context → Expr → List Link → Word → Bool → Parse Expr
  | 0, c, _, _, _, _ => fail .tooDeep c.place
  | fuel + 1, c, root, done, w, lenient => do
    let _ ← next
    let n ← peek
    let name ← match n.token with
      | .name x => pure x
      | .reserved r =>
        if methodWords.contains r then pure r else fail (.reserved r) n.place
      | _ => fail .propertyExpected n.place
    let _ ← next
    let c ← deeper c
    let after ← peek
    let call (args : List Expr) : Parse Expr :=
      links fuel c root (.method name args n.place w.place lenient :: done)
    match after.token with
    | .symbol "(" =>
      let _ ← next
      call (← arguments fuel { c with place := n.place } name)
    | .symbol "()" => let _ ← next; call []
    | .symbol "!" =>
      let _ ← next
      let _ ← expect "(" "to start arguments list of function call"
      let _ ← arguments fuel { c with place := n.place } name
      fail (.badCapture "method-call style does not support running within the caller's scope")
        n.place
    | .symbol "::" => fail (.word (.improper "Invalid symbol encountered: '::'")) after.place
    | _ =>
      match n.token with
      | .reserved r => fail (.reserved r) n.place
      | _ => links fuel c root (.field name n.place w.place lenient :: done)

/-- The arguments of a call whose opening bracket has been taken. -/
def arguments : Nat → Context → String → Parse (List Expr)
  | 0, c, _ => fail .tooDeep c.place
  | fuel + 1, c, name => do
    let w ← peek
    let unclosed := CompileFault.missing ")"
      ("to close the arguments list of this function call '" ++ name ++ "'")
    if isEnd w then fail unclosed w.place
    else if isSymbol w ")" then let _ ← next; pure []
    else match w.token with
      | .bad f => fail (.word f) w.place
      | _ =>
        let c ← deeper c
        argumentsWith fuel { c with barred := false } name []

/-- The arguments of a call, the last one first. -/
def argumentsWith : Nat → Context → String → List Expr → Parse (List Expr)
  | 0, c, _, _ => fail .tooDeep c.place
  | fuel + 1, c, name, done => do
    let done ← if isSymbol (← peek) ")" then pure done else pure ((← expr fuel c) :: done)
    let w ← peek
    if isSymbol w ")" then let _ ← next; pure done.reverse
    else if isSymbol w "," then let _ ← next; argumentsWith fuel c name done
    else if isEnd w then
      fail (.missing ")" ("to close the arguments list of this function call '" ++ name ++ "'"))
        w.place
    else failAt w (.missing "," ("to separate the arguments to function call '" ++ name ++ "'"))

/-- A closure. -/
def closure : Nat → Context → Parse Expr
  | 0, c => fail .tooDeep c.place
  | fuel + 1, c => do
    let c' ← deeper { c with
      maxDepth := c.limits.functionExprDepth
      global := false, inFunction := true, breakable := false, barred := false }
    let w ← next
    let outer ← get
    set { outer with declared := [], outside := [], captures := true }
    let c' ← deeper c'
    let params ← if isSymbol w "||" then pure [] else closureParams fuel "" []
    let body ← stmt fuel c'
    let inner ← get
    set { inner with declared := outer.declared, outside := outer.outside, captures := true }
    for n in inner.outside do note n
    let shared := inner.outside
    let body := match body with
      | .block b _ => b
      | .nothing _ => []
      | s => [s]
    let f : Function := .mk "" false (shared.map (·.text) ++ params) body w.place
    pure (.closure f shared w.place)

/-- The parameters of a closure, up to the closing bar. -/
def closureParams : Nat → String → List String → Parse (List String)
  | 0, _, _ => fail .tooDeep .none
  | fuel + 1, name, done => do
    let w ← next
    match w.token with
    | .symbol "|" => pure done.reverse
    | .name n =>
      if done.contains n then fail (.duplicateParameter name n) w.place
      else
        declare n false
        let sep ← next
        if isSymbol sep "|" then pure (n :: done).reverse
        else if isSymbol sep "," then closureParams fuel name (n :: done)
        else failAt sep (.missing "," "to separate the parameters of anonymous function")
    | _ => failAt w <|
      .missing "|" "to close the parameters list of anonymous function or closure"

/-- A block and the place of its opening brace. -/
def block : Nat → Context → Parse (List Stmt × Place)
  | 0, c => fail .tooDeep c.place
  | fuel + 1, c => do
    let p ← expect "\x7b" "to start a statement block"
    let c ← deeperAt c p
    let body ← inside (blockRest fuel { c with global := false, barred := false } [])
    pure (body, p)

/-- The statements of a block, the last one first, and its end. -/
def blockRest : Nat → Context → List Stmt → Parse (List Stmt)
  | 0, c, _ => fail .tooDeep c.place
  | fuel + 1, c, done => do
    let w ← peek
    if isSymbol w "\x7d" then let _ ← next; pure done.reverse
    else if isEnd w then fail (.missing "\x7d" "to terminate this block") w.place
    else
      let s ← stmt fuel c
      if isNothing s then blockRest fuel c done
      else
        let w ← peek
        if isSymbol w "\x7d" then let _ ← next; pure (s :: done).reverse
        else if isSymbol w ";" then let _ ← next; blockRest fuel c (s :: done)
        else if endsItself s then blockRest fuel c (s :: done)
        else failAt w (.missing ";" "to terminate this statement")

/-- A control statement that starts with the given keyword. -/
def controlStmt : Nat → Context → String → Parse Stmt
  | 0, c, _ => fail .tooDeep c.place
  | fuel + 1, c, keyword => do
    let w ← next
    let c ← deeperAt c w.place
    match keyword with
    | "if" =>
      needExpr "a boolean"
      let test ← needBool (← expr fuel c)
      noAssignment
      let (yes, _) ← block fuel c
      let no ← if ← accept "else" then
          if isSymbol (← peek) "if" then pure [← controlStmt fuel c "if"]
          else Prod.fst <$> block fuel c
        else pure []
      pure (.branch test yes no w.place)
    | "while" =>
      needExpr "a boolean"
      let test ← needBool (← expr fuel c)
      noAssignment
      let (body, p) ← block fuel { c with breakable := true }
      pure (.loop (some test) body p w.place)
    | "loop" =>
      let (body, p) ← block fuel { c with breakable := true }
      pure (.loop none body p w.place)
    | "do" =>
      let (body, p) ← block fuel { c with breakable := true }
      let k ← next
      let on ← if isSymbol k "while" then pure true else if isSymbol k "until" then pure false
        else fail (.missing "while" "for the do statement") k.place
      needExpr "a boolean"
      let test ← needBool (← expr fuel c)
      noAssignment
      pure (.repetition body on test p w.place)
    | "for" => inside do
      let (name, counter) ← if ← accept "(" then do
          let name ← variableName
          let k ← peek
          unless isSymbol k "," do
            fail (.missing "," "after the iteration variable name") k.place
          let _ ← next
          let counter ← variableName
          if counter.text == name.text then fail (.duplicateVariable counter.text) counter.place
          let k ← peek
          unless isSymbol k ")" do
            fail (.missing ")" "to close the iteration variable") k.place
          let _ ← next
          pure (name, some counter)
        else do pure (← variableName, none)
      let _ ← expect "in" "after the iteration variable"
      needExpr "a boolean"
      let items ← needIterable (← expr fuel c)
      match counter with
      | some n => declare n.text false
      | none => pure ()
      declare name.text false
      let (body, p) ← block fuel { c with breakable := true }
      pure (.each name counter items body p w.place)
    | _ =>
      let subject ← expr fuel c
      let _ ← expect "\x7b" "to start a switch block"
      let cases ← switchCases fuel c .none false []
      pure (.switch subject cases w.place)

/-- The cases of a switch, the last one first, and its end. `fallback` is the place of the
default case, `ranged` tells that a case was a range. -/
def switchCases : Nat → Context → Place → Bool → List Case → Parse (List Case)
  | 0, c, _, _, _ => fail .tooDeep c.place
  | fuel + 1, c, fallback, ranged, done => do
    let purpose := "to end this switch block"
    let w ← peek
    if isSymbol w "\x7d" then let _ ← next; pure done.reverse
    else if isEnd w then fail (.missing "\x7d" purpose) w.place
    else
      let isDefault := isSymbol w "_" && fallback.isNone
      if !isDefault && !fallback.isNone then fail .defaultNotLast fallback
      let (values, condition) ← if isDefault then do
          let _ ← next
          let k ← peek
          if isSymbol k "if" then fail .defaultWithCondition k.place
          pure ([], none)
        else do
          let values ← caseValues fuel c []
          let condition ← if ← accept "if" then do
              needExpr "a boolean"
              let test ← needBool (← expr fuel { c with barred := false })
              noAssignment
              pure (some test)
            else pure none
          pure (values, condition)
      let _ ← expect "=>" "in this switch case"
      let s ← stmt fuel { c with global := false, barred := false }
      let action : Expr := match s with
        | .block b p => .block b p
        | .nothing p => .block [] p
        | .expr e => .block [.expr e] e.place
        | s => .block [s] w.place
      let (values, ranged) ← settleValues ranged values
      let done := .mk values condition action :: done
      let fallback := if isDefault then w.place else fallback
      let k ← peek
      if isSymbol k "," then let _ ← next; switchCases fuel c fallback ranged done
      else if isSymbol k "\x7d" then switchCases fuel c fallback ranged done
      else if isEnd k then fail (.missing "\x7d" purpose) k.place
      else match k.token with
        | .bad f => fail (.word f) k.place
        | _ =>
          if endsItself s then switchCases fuel c fallback ranged done
          else fail (.missing "," "to separate the items in this switch block") k.place
where
  /-- The literals of a case, and whether a range is among them or in front of them. A short
  range stands for its numbers unless a range is in front of it; behind a range there is no
  case for a number. -/
  settleValues (ranged : Bool) : List Expr → Parse (List Literal × Bool)
    | [] => pure ([], ranged)
    | e :: rest =>
      match literal? e with
      | none => fail (.expressionExpected "a literal") e.start
      | some l => do
        let (here, ranged) ← match l with
          | .range a b inclusive =>
            let size := b.toInt - a.toInt + (if inclusive then 1 else 0)
            if size ≤ 0 then pure ([l], ranged)
            else if !ranged && size ≤ shortRange then
              pure ((List.range size.toNat).map fun k => .int (a + Int64.ofNat k), false)
            else pure ([l], true)
          | .int _ => if ranged then fail .numberAfterRange e.start else pure ([l], false)
          | _ => pure ([l], ranged)
        let (others, ranged) ← settleValues ranged rest
        pure (here ++ others, ranged)

/-- The values of a switch case, with bars between them. -/
def caseValues : Nat → Context → List Expr → Parse (List Expr)
  | 0, c, _ => fail .tooDeep c.place
  | fuel + 1, c, done => do
    let e ← fun s => match expr fuel { c with barred := true } s with
      | .ok e s => .ok e s
      | .error e s => .error ⟨.expressionExpected "literal", e.place⟩ s
    if ← accept "|" then caseValues fuel c (e :: done) else pure (e :: done).reverse

/-- A declaration behind its keyword. -/
def declaration : Nat → Context → Bool → Bool → Parse Stmt
  | 0, c, _, _ => fail .tooDeep c.place
  | fuel + 1, c, constant, exported => do
    let w ← next
    let name ← variableName
    let value ← if ← accept "=" then expr fuel (← deeper { c with place := w.place })
      else pure (.literal .unit .none)
    declare name.text constant
    pure (.declare constant exported name value w.place)

/-- A statement. -/
def stmt : Nat → Context → Parse Stmt
  | 0, c => fail .tooDeep c.place
  | fuel + 1, c => do
    let w ← peek
    let c := { c with place := w.place }
    match w.token with
    | .eof => pure (.nothing w.place)
    | .symbol s =>
      match s with
      | ";" => let _ ← next; pure (.nothing w.place)
      | "\x7b" =>
        let (body, p) ← block fuel (← deeper c)
        pure (.block body p)
      | "fn" | "private" =>
        if !c.global then
          if s == "fn" then fail .nestedFunction w.place else fail (.unexpected s) w.place
        else
          let isPrivate ← accept "private"
          let k ← next
          if !isSymbol k "fn" then fail (.missing "fn" "following 'private'") k.place
          else function fuel c isPrivate k.place
      | "if" | "while" | "loop" | "do" | "for" | "switch" => controlStmt fuel (← deeper c) s
      | "continue" =>
        if c.breakable then let _ ← next; pure (.again w.place) else fail .strayBreak w.place
      | "break" =>
        if !c.breakable then fail .strayBreak w.place
        else
          let _ ← next
          let k ← peek
          if isEnd k || isSymbol k "\x7d" || isSymbol k ";" then pure (.leave none w.place)
          else pure (.leave (some (← expr fuel (← deeper c))) w.place)
      | "return" | "throw" =>
        let _ ← next
        let k ← peek
        let value ← if isEnd k || isSymbol k ";" || (isSymbol k "\x7d" && !c.global) then pure none
          else some <$> expr fuel (← deeper c)
        pure (if s == "return" then .giveBack value w.place else .raise value w.place)
      | "try" =>
        let c ← deeper c
        let _ ← next
        let c ← deeperAt c w.place
        let (body, _) ← block fuel c
        let k ← peek
        if !isSymbol k "catch" then fail (.missing "catch" "for the 'try' statement") k.place
        let _ ← next
        inside do
          let caught ← if ← accept "(" then do
              let name ← variableName
              let k ← peek
              if !isSymbol k ")" then
                fail (.missing ")" "to enclose the catch variable") k.place
              let _ ← next
              declare name.text false
              pure (some name)
            else pure none
          let (handler, _) ← block fuel c
          pure (.attempt body caught handler w.place)
      | "let" => declaration fuel (← deeper c) false false
      | "const" => declaration fuel (← deeper c) true false
      | "import" =>
        let c ← deeper c
        let _ ← next
        let path ← expr fuel (← deeperAt c w.place)
        let newName ← if ← accept "as" then some <$> variableName else pure none
        pure (.use path newName w.place)
      | "export" =>
        if !c.global then fail .nestedExport w.place
        else
          let c ← deeper c
          let _ ← next
          let k ← peek
          if isSymbol k "let" then declaration fuel (← deeper c) false true
          else if isSymbol k "const" then declaration fuel (← deeper c) true true
          else
            let name ← variableName
            let newName ← if ← accept "as" then some <$> variableName else pure none
            pure (.offer name newName w.place)
      | _ => exprStmt fuel (← deeper c)
    | _ => exprStmt fuel (← deeper c)

/-- An expression or an assignment. -/
def exprStmt : Nat → Context → Parse Stmt
  | 0, c => fail .tooDeep c.place
  | fuel + 1, c => do
    let e ← expr fuel c
    let w ← peek
    match w.token with
    | .symbol s =>
      if s == "=" then
        let _ ← next
        let value ← expr fuel { c with place := w.place }
        assignment none e value w.place
      else match assignOperator s with
        | some op =>
          let _ ← next
          let value ← expr fuel { c with place := w.place }
          assignment (some op) e value w.place
        | none => pure (.expr e)
    | _ => pure (.expr e)

/-- A function behind its keyword. -/
def function : Nat → Context → Bool → Place → Parse Stmt
  | 0, c, _, _ => fail .tooDeep c.place
  | fuel + 1, c, isPrivate, p => do
    let w ← next
    let name ← match w.token with
      | .name n => pure n
      | .reserved r =>
        if callableWords.contains r then pure r else fail (.reserved r) w.place
      | .bad f => fail (.word f) w.place
      | _ => fail .functionUnnamed w.place
    let outer ← get
    set { outer with declared := [], outside := [], captures := false }
    let k ← peek
    let params ← match k.token with
      | .symbol "()" => do let _ ← next; pure []
      | .symbol "(" => do
        let _ ← next
        if ← accept ")" then pure [] else functionParams fuel name []
      | _ => fail (.parametersMissing name) k.place
    let k ← peek
    if !isSymbol k "\x7b" then fail (.bodyMissing name) k.place
    let within : Context :=
      { limits := c.limits, depth := 0, maxDepth := c.limits.functionExprDepth, place := p
        global := false, inFunction := true, breakable := false, barred := false }
    let (body, q) ← block fuel (← deeper within)
    let inner ← get
    set { inner with declared := outer.declared, outside := outer.outside, captures := true }
    if inner.functions.any fun f => f.name == name && f.params.length == params.length then
      fail (.duplicateFunction name params.length) p
    modify fun s => { s with functions := .mk name isPrivate params body q :: s.functions }
    pure (.nothing p)

/-- The parameters of a function, up to the closing bracket. -/
def functionParams : Nat → String → List String → Parse (List String)
  | 0, _, _ => fail .tooDeep .none
  | fuel + 1, name, done => do
    let w ← next
    match w.token with
    | .symbol ")" => pure done.reverse
    | .name n =>
      if done.contains n then fail (.duplicateParameter name n) w.place
      else
        declare n false
        let sep ← next
        if isSymbol sep ")" then pure (n :: done).reverse
        else if isSymbol sep "," then functionParams fuel name (n :: done)
        else failAt sep (.missing "," ("to separate the parameters of function '" ++ name ++ "'"))
    | _ => failAt w (.missing ")" ("to close the parameters list of function '" ++ name ++ "'"))

end

/-- The statements of a script, the last one first. -/
def global (fuel : Nat) (c : Context) : Nat → List Stmt → Parse (List Stmt)
  | 0, _ => fail .tooDeep c.place
  | n + 1, done => do
    if isEnd (← peek) then pure done.reverse
    else
      let s ← stmt fuel c
      if isNothing s then global fuel c n done
      else
        let w ← peek
        if isEnd w then pure (s :: done).reverse
        else if isSymbol w ";" then
          if !endsItself s then let _ ← next
          global fuel c n (s :: done)
        else if endsItself s then global fuel c n (s :: done)
        else failAt w (.missing ";" "to terminate this statement")

end Parse

/-- Where the statements of a script stand. -/
def Context.outermost (limits : Limits) : Context :=
  { limits := limits, depth := 0, maxDepth := limits.exprDepth, place := ⟨1, 0⟩
    global := true, inFunction := false, breakable := false, barred := false }

/-- Reads a script. -/
def Program.parse (limits : Limits) (script : String) : Except CompileError Program :=
  let words := (Token.scan limits.textSize script).toList
  let context := Context.outermost limits
  let size := words.length + 1
  match Parse.global (40 * size) context size [] ⟨words, [], [], true, []⟩ with
  | .ok body s => .ok ⟨body, s.functions.reverse⟩
  | .error e _ => .error e

/-- A word of JSON text as a word of a script: braces enclose object maps and `null` is the
unit. -/
def Word.ofJson (w : Word) : Word :=
  let improper : Word := ⟨.bad (.improper "Invalid JSON syntax"), w.place⟩
  match w.token with
  | .reserved "null" => ⟨.symbol "()", w.place⟩
  | .symbol "\x7b" => ⟨.symbol "#\x7b", w.place⟩
  | .symbol "()" | .symbol "#\x7b" | .template _ => improper
  | _ => w

/-- Reads JSON text as an expression. -/
def Program.parseJson (limits : Limits) (text : String) : Except CompileError Expr :=
  let words := ((Token.scan limits.textSize text).map Word.ofJson).toList
  let read : Parse Expr := do
    let e ← Parse.expr (40 * (words.length + 1)) (Context.outermost limits)
    let w ← Parse.peek
    if Parse.isEnd w then pure e
    else match w.token with
      | .text s => Parse.fail (.unexpected ("\"" ++ s ++ "\"")) w.place
      | t => Parse.failAt w (.unexpected t.spelling)
  match read ⟨words, [], [], true, []⟩ with
  | .ok e _ => .ok e
  | .error e _ => .error e

end ScriptedActions.Script
