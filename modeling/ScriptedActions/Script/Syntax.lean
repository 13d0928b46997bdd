import ScriptedActions.Script.Place

/-!
# The syntax of scripts

A script is a list of statements and the functions that it defines. An access such as
`a.b[i].f(x)` is a `chain`: an expression and the links that follow it; only a chain on a
variable can be assigned to. A closure carries its function and the variables around it that
it shares.
-/

set_option autoImplicit false

namespace ScriptedActions.Script

/-- A value that stands in the script itself. -/
inductive Literal where
  | unit
  | bool (b : Bool)
  | int (n : Int64)
  | float (x : Float)
  | char (c : Char)
  | text (s : String)
  | array (items : List Literal)
  | map (entries : List (String × Literal))
  | range (first last : Int64) (inclusive : Bool)
  | fn (name : String)
deriving Repr, Inhabited

/-- A name and where it stands. -/
structure Name where
  text : String
  place : Place
deriving Repr, Inhabited, DecidableEq

mutual

/-- An expression. -/
inductive Expr where
  | literal (l : Literal) (p : Place)
  | var (name : String) (p : Place)
  /-- A variable of a module. -/
  | member (path : List Name) (name : String) (p : Place)
  | this (p : Place)
  /-- Text with embedded blocks. -/
  | template (parts : List Expr) (p : Place)
  | array (items : List Expr) (p : Place)
  | map (entries : List (String × Expr)) (p : Place)
  /-- A unary or binary operator, which scripts can give a meaning for their own types. -/
  | operator (op : String) (operands : List Expr) (p : Place)
  | both (left right : Expr) (p : Place)
  | either (left right : Expr) (p : Place)
  /-- The left value unless it is the unit. -/
  | orElse (left right : Expr) (p : Place)
  /-- A function call; `captures` runs the function with the variables of the caller. -/
  | call (name : String) (args : List Expr) (captures : Bool) (p : Place)
  /-- A call of a function of a module. -/
  | memberCall (path : List Name) (name : String) (args : List Expr) (p : Place)
  | chain (root : Expr) (links : List Link)
  | block (body : List Stmt) (p : Place)
  | closure (f : Function) (shared : List Name) (p : Place)

/-- A step of an access. `p` is the place of the name or index, `dot` of the dot or bracket, and
`lenient` lets the access end with the unit when there is nothing to step into. -/
inductive Link where
  | field (name : String) (p dot : Place) (lenient : Bool)
  | method (name : String) (args : List Expr) (p dot : Place) (lenient : Bool)
  | index (e : Expr) (dot : Place) (lenient : Bool)

/-- A statement. -/
inductive Stmt where
  | nothing (p : Place)
  | expr (e : Expr)
  | declare (constant exported : Bool) (name : Name) (value : Expr) (p : Place)
  /-- An assignment, with the operator that combines the old value and the new one. -/
  | assign (op : Option String) (target value : Expr) (p : Place)
  | branch (test : Expr) (yes no : List Stmt) (p : Place)
  | block (body : List Stmt) (p : Place)
  | switch (subject : Expr) (cases : List Case) (p : Place)
  /-- A loop with a test in front of its body; without a test it has no end of its own. -/
  | loop (test : Option Expr) (body : List Stmt) (inner p : Place)
  /-- A loop with a test behind its body that must be `on` for another round. -/
  | repetition (body : List Stmt) (on : Bool) (test : Expr) (inner p : Place)
  | each (name : Name) (counter : Option Name) (items : Expr) (body : List Stmt) (inner p : Place)
  | leave (value : Option Expr) (p : Place)
  | again (p : Place)
  | giveBack (value : Option Expr) (p : Place)
  | raise (value : Option Expr) (p : Place)
  | attempt (body : List Stmt) (caught : Option Name) (handler : List Stmt) (p : Place)
  | use (path : Expr) (newName : Option Name) (p : Place)
  | offer (name : Name) (newName : Option Name) (p : Place)
  /-- Makes variables shared, for the closure that follows. -/
  | share (names : List Name)

/-- A case of a switch: the values it stands for, none for the default case, its condition and
what it does. -/
inductive Case where
  | mk (values : List Literal) (condition : Option Expr) (action : Expr)

/-- A function: its name, its parameters and its body. -/
inductive Function where
  | mk (name : String) (isPrivate : Bool) (params : List String) (body : List Stmt) (p : Place)

end

instance : Inhabited Expr := ⟨.literal .unit .none⟩
instance : Inhabited Stmt := ⟨.nothing .none⟩
instance : Inhabited Link := ⟨.field "" .none .none false⟩
instance : Inhabited Function := ⟨.mk "" false [] [] .none⟩

namespace Function

/-- The name of a function. -/
def name : Function → String
  | mk n _ _ _ _ => n

/-- Whether a function is hidden from the scripts that use the module. -/
def isPrivate : Function → Bool
  | mk _ h _ _ _ => h

/-- The parameters of a function. -/
def params : Function → List String
  | mk _ _ ps _ _ => ps

/-- The body of a function. -/
def body : Function → List Stmt
  | mk _ _ _ b _ => b

/-- Where the body of a function starts. -/
def place : Function → Place
  | mk _ _ _ _ p => p

/-- The function with another body. -/
def withBody (b : List Stmt) : Function → Function
  | mk n h ps _ p => mk n h ps b p

end Function

namespace Link

/-- The place of the dot or bracket. -/
def dot : Link → Place
  | field _ _ d _ => d
  | method _ _ _ d _ => d
  | index _ d _ => d

/-- Whether the access may end here when there is nothing to step into. -/
def lenient : Link → Bool
  | field _ _ _ l => l
  | method _ _ _ _ l => l
  | index _ _ l => l

end Link

namespace Expr

/-- Where an expression stands; an operator stands at its sign. -/
def place : Expr → Place
  | .literal _ p | .var _ p | .member _ _ p | .this p | .template _ p | .array _ p | .map _ p
  | .operator _ _ p | .both _ _ p | .either _ _ p | .orElse _ _ p | .call _ _ _ p
  | .memberCall _ _ _ p | .block _ p | .closure _ _ p => p
  | .chain root links =>
    match links with
    | l :: _ => l.dot
    | [] => root.place

/-- Where an expression starts, as diagnostics count it. -/
def start : Expr → Place
  | .chain root _ => root.start
  | .both l _ _ | .either l _ _ | .orElse l _ _ => l.start
  | .member (n :: _) _ _ => n.place
  | .memberCall (n :: _) _ _ _ => n.place
  | e => e.place

end Expr

/-- A compiled script: its statements and its functions. -/
structure Program where
  body : List Stmt
  functions : List Function
deriving Inhabited

end ScriptedActions.Script
