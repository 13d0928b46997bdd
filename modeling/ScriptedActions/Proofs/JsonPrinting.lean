import ScriptedActions.Proofs.JsonAccepting
import ScriptedActions.Proofs.Table

/-!
# The texts of values

Two things do not come back from the text of a value: floats, whose text is read with an error in the
last digit at times, and values that are nested deeper than a reader goes. What is left is said here
(`IsReadable`, `IsExact`), and how the text of an array or an object is put together from the texts of
what is inside.

The depth of a value is a bound here and no number: `IsReadable d` holds of the values that are
nested at most `d` deep, and a cursor that has more than `d` levels left can read them.
-/

set_option autoImplicit false

namespace ScriptedActions.Json

/-- A value that a reader can give: its integers are 64-bit integers, its objects are in order, and
it is nested at most `depth` deep. -/
inductive IsReadable : Nat → Json → Prop
  | null (depth : Nat) : IsReadable depth .null
  | bool (depth : Nat) (b : Bool) : IsReadable depth (.bool b)
  | int {depth : Nat} {n : Int} (h : minInt ≤ n ∧ n ≤ maxNat) : IsReadable depth (.int n)
  | float (depth : Nat) (x : Float) : IsReadable depth (.float x)
  | string (depth : Nat) (s : String) : IsReadable depth (.string s)
  | array {depth : Nat} {items : List Json} (h : ∀ v ∈ items, IsReadable depth v) :
    IsReadable (depth + 1) (.array items)
  | object {depth : Nat} {members : List (String × Json)} (hsorted : Table.Sorted members)
    (h : ∀ e ∈ members, IsReadable depth e.2) : IsReadable (depth + 1) (.object members)

/-- A value that its text tells exactly: it has no floats, and only members that are read as
members. -/
inductive IsExact : Json → Prop
  | null : IsExact .null
  | bool (b : Bool) : IsExact (.bool b)
  | int (n : Int) : IsExact (.int n)
  | string (s : String) : IsExact (.string s)
  | array {items : List Json} (h : ∀ v ∈ items, IsExact v) : IsExact (.array items)
  | object {members : List (String × Json)} (hnames : ∀ e ∈ members, e.1 ≠ rawName)
    (h : ∀ e ∈ members, IsExact e.2) : IsExact (.object members)

/-! ## Texts of values -/

/-- Texts with commas between them, and in front of them unless they are the first ones. -/
def joined : Bool → List (List Char) → List Char
  | _, [] => []
  | first, t :: ts => (if first then [] else [',']) ++ (t ++ joined false ts)

def memberText (e : String × Json) : List Char :=
  (stringText e.1).toList ++ ':' :: e.2.render.toList

theorem toList_renderItems (items : List Json) :
    (renderItems items).toList = joined true (items.map (·.render.toList)) := by
  induction items with
  | nil => rfl
  | cons v rest ih =>
    cases rest with
    | nil => simp [renderItems, joined]
    | cons w rest =>
      unfold renderItems
      rw [String.toList_append, String.toList_append, ih]
      simp [joined]

theorem toList_render_array (items : List Json) :
    (render (.array items)).toList =
      '[' :: (joined true (items.map (·.render.toList)) ++ [']']) := by
  show ("[" ++ renderItems items ++ "]").toList = _
  rw [String.toList_append, String.toList_append, toList_renderItems]
  rfl

theorem toList_renderMembers (members : List (String × Json)) :
    (renderMembers members).toList = joined true (members.map memberText) := by
  induction members with
  | nil => rfl
  | cons e rest ih =>
    obtain ⟨k, v⟩ := e
    cases rest with
    | nil => simp [renderMembers, joined, memberText]
    | cons e' rest =>
      unfold renderMembers
      rw [String.toList_append, String.toList_append, ih]
      simp [joined, memberText]

theorem toList_render_object (members : List (String × Json)) :
    (render (.object members)).toList =
      '\x7b' :: (joined true (members.map memberText) ++ ['\x7d']) := by
  show ("\x7b" ++ renderMembers members ++ "\x7d").toList = _
  rw [String.toList_append, String.toList_append, toList_renderMembers]
  rfl

namespace Reader

variable {α β : Type} {cs tail : List Char} {depth : Nat} {a : α}

theorem endsValue_joined (ts : List (List Char)) (h : EndsValue tail) :
    EndsValue (joined false ts ++ tail) := by
  cases ts with
  | nil => exact h
  | cons t ts => exact endsValue_comma _

theorem accepts_endList : endList.Accepts [']'] tail depth () := by
  refine Accepts.first (accepts_peekToken (noBlank_cons rfl)) ?_
  exact accepts_skip ']'

theorem accepts_endObject : endObject.Accepts ['\x7d'] tail depth () := by
  refine Accepts.first (accepts_peekToken (noBlank_cons rfl)) ?_
  exact accepts_skip '\x7d'

theorem run_bind (r : Reader α) (f : α → Reader β) (c : Cursor) : (r >>= f) c =
    match r c with
    | .ok a c' => f a c'
    | .error e c' => .error e c' := by
  change EStateM.bind r f c = _
  unfold EStateM.bind
  cases r c <;> rfl

/-! ## Whole numbers -/

/-- The digits of a negative number, behind its sign. -/
theorem accepts_negative {z : Int} (hlow : minInt ≤ z) (hnegative : z < 0) (ht : EndsNumber tail) :
    (number false).Accepts (decimal z.natAbs) tail depth (.int z) := by
  unfold minInt at hlow
  have hsignificand : z.natAbs ≤ maxSignificand := by
    unfold maxSignificand
    omega
  have hwhole : numberEnd.whole false z.natAbs = .int z := by
    unfold numberEnd.whole
    rw [if_neg Bool.false_ne_true, if_neg (by omega)]
    congr 1
    omega
  rw [← hwhole]
  exact accepts_number false hsignificand ht

theorem accepts_natural {z : Int} (hz : 0 ≤ z) (hhigh : z ≤ maxNat) (ht : EndsNumber tail) :
    (number true).Accepts (decimal z.natAbs) tail depth (.int z) := by
  unfold maxNat at hhigh
  have hsignificand : z.natAbs ≤ maxSignificand := by
    unfold maxSignificand
    omega
  have hwhole : numberEnd.whole true z.natAbs = .int z := by
    unfold numberEnd.whole
    rw [if_pos rfl]
    congr 1
    omega
  rw [← hwhole]
  exact accepts_number true hsignificand ht

/-! ## Whole texts -/

/-- Running a reader on a text looks at its characters alone. -/
theorem run_eq (r : Reader α) {text : String} (h : text.toList = cs) :
    run r text = match whole r ⟨cs, 1, 0, depthLimit, 2 * (cs.length + 1)⟩ with
      | .ok a _ => .ok a
      | .error e _ => .error e := by
  have hstart : Cursor.start text = ⟨cs, 1, 0, depthLimit, 2 * (cs.length + 1)⟩ := by
    unfold Cursor.start
    rw [← h, String.length_toList]
  show (match whole r (.start text) with
    | .ok a _ => .ok a
    | .error e _ => .error e : Except Error α) = _
  rw [hstart]

end Reader

end ScriptedActions.Json
