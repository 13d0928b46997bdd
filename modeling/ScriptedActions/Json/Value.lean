import ScriptedActions.Table

/-!
# JSON values

A number is a whole number or a float, and the two are told apart: a whole number is one of the
64-bit integers, signed or unsigned, and everything else that a text can spell is a float.
The members of an object are a table, so they are listed in the order of their names.
-/

set_option autoImplicit false

namespace ScriptedActions

/-- A JSON value. -/
inductive Json where
  | null
  | bool (b : Bool)
  /-- A whole number; reading gives those from `-2 ^ 63` to `2 ^ 64 - 1` alone. -/
  | int (n : Int)
  | float (x : Float)
  | string (s : String)
  | array (items : List Json)
  | object (members : List (String × Json))
deriving Inhabited, Repr

namespace Json

/-- The least signed 64-bit integer. -/
def minInt : Int := -0x8000000000000000

/-- The greatest signed 64-bit integer. -/
def maxInt : Int := 0x7fffffffffffffff

/-- The greatest unsigned 64-bit integer. -/
def maxNat : Int := 0xffffffffffffffff

/-- The name of a member by which a reader of JSON passes on a piece of text instead of a value.
It is no name of a member of a value. -/
def rawName : String := "$serde_json::private::RawValue"

/-- The members of an object; no other value has any. -/
def members : Json → Table Json
  | object ms => ms
  | _ => []

/-- The member of an object with a given name. -/
def get? (v : Json) (name : String) : Option Json := Table.get? v.members name

/-- The text of a string. -/
def text? : Json → Option String
  | string s => some s
  | _ => none

mutual

/-- Whether two values are the same value; floats are compared as numbers. -/
def same : Json → Json → Bool
  | null, null => true
  | bool a, bool b => a == b
  | int a, int b => a == b
  | float a, float b => a == b
  | string a, string b => a == b
  | array as, array bs => sameItems as bs
  | object as, object bs => sameMembers as bs
  | _, _ => false

/-- Item by item. -/
def sameItems : List Json → List Json → Bool
  | [], [] => true
  | a :: as, b :: bs => same a b && sameItems as bs
  | _, _ => false

/-- Member by member, in the order of the names. -/
def sameMembers : List (String × Json) → List (String × Json) → Bool
  | [], [] => true
  | (k, a) :: as, (l, b) :: bs => k == l && same a b && sameMembers as bs
  | _, _ => false

end

end Json

end ScriptedActions
