import ScriptedActions.ReplyObject

/-!
# Copies of reply objects

A reply object can be copied, and a copy again. The objects that come of one are numbered in the order
in which they were made, and each operation names the object that it is done to. Taking the outputs of
an object uses it up: nothing can be done to it any more.
-/

set_option autoImplicit false

namespace ScriptedActions

/-- What is done to a reply object. -/
inductive ReplyOperation where
  | set (field : String) (value : Json)
  | get (field : String)
  | contains (field : String)
  | keys
  | size
  | isFalsy
  | display
  | copy
  | take
deriving Repr

/-- The answer to an operation on a reply object. -/
inductive ReplyAnswer where
  | done
  | refused (e : ReplyError)
  | value (v : Option Json)
  | truth (b : Bool)
  | names (ks : List String)
  | count (n : Nat)
  | text (s : String)
  /-- The number of the copy. -/
  | copied (copy : Nat)
  | outputs (data : Table Json)
deriving Repr

/-- An operation, and the number of the object that it is done to. -/
structure ReplyStep where
  on : Nat
  operation : ReplyOperation
deriving Repr

/-- Reply objects by their numbers; nothing is left of those that were used up. -/
structure ReplyObjects where
  all : List (Option ReplyObject)
deriving Inhabited, Repr

namespace ReplyObjects

/-- One reply object, which holds some defaults. -/
def begin (defaults : Table Json) : ReplyObjects := ⟨[some ⟨defaults⟩]⟩

/-- The object of a number. -/
def get? (rs : ReplyObjects) (i : Nat) : Option ReplyObject := (rs.all[i]?).join

/-- Puts an object in the place of another one, or nothing. -/
def put (rs : ReplyObjects) (i : Nat) (r : Option ReplyObject) : ReplyObjects := ⟨rs.all.set i r⟩

/-- Does an operation; there is no answer if the object is not there. -/
def act (rs : ReplyObjects) (s : ReplyStep) : Option ReplyAnswer × ReplyObjects :=
  match rs.get? s.on with
  | none => (none, rs)
  | some r =>
    match s.operation with
    | .set field v =>
      match r.set field v with
      | .ok r => (some .done, rs.put s.on (some r))
      | .error e => (some (.refused e), rs)
    | .get field => (some (.value (r.get? field)), rs)
    | .contains field => (some (.truth (r.contains field)), rs)
    | .keys => (some (.names r.keys), rs)
    | .size => (some (.count r.size), rs)
    | .isFalsy => (some (.truth r.isEmpty), rs)
    | .display => (some (.text r.render), rs)
    | .copy => (some (.copied rs.all.length), ⟨rs.all ++ [some r]⟩)
    | .take => (some (.outputs r.data), rs.put s.on none)

/-- Does some operations, one after the other. -/
def run (rs : ReplyObjects) (steps : List ReplyStep) : List (Option ReplyAnswer) × ReplyObjects :=
  match steps with
  | [] => ([], rs)
  | s :: rest =>
    let (answer, rs) := rs.act s
    let (answers, rs) := rs.run rest
    (answer :: answers, rs)

end ReplyObjects

end ScriptedActions
