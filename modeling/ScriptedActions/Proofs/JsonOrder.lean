import ScriptedActions.Proofs.JsonMeaning
import ScriptedActions.Proofs.Table

/-!
# Members in another order

Two trees are reorderings of each other if they differ in nothing but the order of the members of
their objects, at any depth, and no object has two members of one name (`Reorders`). Two texts that
spell them differ in the order of members, and in their blanks.

Reordered trees have the same value (`Reorders.value?_eq`): the table of an object is sorted, so of
members with different names it keeps no order.
-/

set_option autoImplicit false

namespace ScriptedActions.Json

/-! ## Reorderings -/

/-- No two members have the same name. A name that stands for no characters is like no other. -/
def Distinct (ms : List (List Piece × Tree)) : Prop :=
  ms.Pairwise fun m n => ∀ cs, unescape m.1 = some cs → unescape n.1 ≠ some cs

mutual

/-- Two trees differ in the order of the members of objects alone. -/
inductive Reorders : Tree → Tree → Prop
  | null : Reorders .null .null
  | bool (b : Bool) : Reorders (.bool b) (.bool b)
  | number (l : Literal) : Reorders (.number l) (.number l)
  | string (pieces : List Piece) : Reorders (.string pieces) (.string pieces)
  | array {ts us : List Tree} : ReordersItems ts us → Reorders (.array ts) (.array us)
  /-- The members may change their places, and their values are reordered in turn. -/
  | object {ms ls ns : List (List Piece × Tree)} : Distinct ms → ms.Perm ls →
    ReordersMembers ls ns → Reorders (.object ms) (.object ns)

/-- Items are reordered one by one, in their places. -/
inductive ReordersItems : List Tree → List Tree → Prop
  | nil : ReordersItems [] []
  | cons {t u : Tree} {ts us : List Tree} : Reorders t u → ReordersItems ts us →
    ReordersItems (t :: ts) (u :: us)

/-- Members are reordered one by one, in their places. -/
inductive ReordersMembers : List (List Piece × Tree) → List (List Piece × Tree) → Prop
  | nil : ReordersMembers [] []
  | cons {pieces : List Piece} {t u : Tree} {ms ns : List (List Piece × Tree)} : Reorders t u →
    ReordersMembers ms ns → ReordersMembers ((pieces, t) :: ms) ((pieces, u) :: ns)

end

/-! ## Values -/

theorem memberValues?_cons {pieces : List Piece} {t : Tree} {ms : List (List Piece × Tree)}
    {depth : Nat} {es : List (String × Json)} :
    memberValues? ((pieces, t) :: ms) depth = some es ↔ ∃ cs v rest, unescape pieces = some cs ∧
      t.value? depth = some v ∧ memberValues? ms depth = some rest ∧
        es = (String.ofList cs, v) :: rest := by
  simp only [memberValues?, Option.bind_eq_some_iff, Option.map_eq_some_iff]
  grind

theorem exists_member {ms : List (List Piece × Tree)} {depth : Nat} {es : List (String × Json)}
    (hes : memberValues? ms depth = some es) {e : String × Json} (he : e ∈ es) :
    ∃ m ∈ ms, unescape m.1 = some e.1.toList := by
  induction ms generalizing es with
  | nil =>
    cases hes
    cases he
  | cons m ms ih =>
    obtain ⟨pieces, t⟩ := m
    obtain ⟨cs, v, rest, hcs, -, hrest, rfl⟩ := memberValues?_cons.mp hes
    rcases List.mem_cons.mp he with rfl | he
    · exact ⟨_, .head _, by rw [hcs, String.toList_ofList]⟩
    · obtain ⟨n, hn, hname⟩ := ih hrest he
      exact ⟨n, .tail _ hn, hname⟩

theorem memberValues?_perm {ms ns : List (List Piece × Tree)} (h : ms.Perm ns) {depth : Nat}
    {es : List (String × Json)} (hes : memberValues? ms depth = some es) :
    ∃ fs, memberValues? ns depth = some fs ∧ es.Perm fs := by
  induction h generalizing es with
  | nil => exact ⟨es, hes, .refl es⟩
  | cons m _ ih =>
    obtain ⟨cs, v, rest, hcs, hv, hrest, rfl⟩ := memberValues?_cons.mp hes
    obtain ⟨fs, hfs, hperm⟩ := ih hrest
    exact ⟨_, memberValues?_cons.mpr ⟨cs, v, fs, hcs, hv, hfs, rfl⟩, hperm.cons _⟩
  | swap m n ms =>
    obtain ⟨cs, v, rest, hcs, hv, hrest, rfl⟩ := memberValues?_cons.mp hes
    obtain ⟨ds, w, last, hds, hw, hlast, rfl⟩ := memberValues?_cons.mp hrest
    refine ⟨_, memberValues?_cons.mpr ⟨ds, w, _, hds, hw, ?_, rfl⟩, .swap _ _ _⟩
    exact memberValues?_cons.mpr ⟨cs, v, last, hcs, hv, hlast, rfl⟩
  | trans _ _ ih ih' =>
    obtain ⟨fs, hfs, hperm⟩ := ih hes
    obtain ⟨gs, hgs, hperm'⟩ := ih' hfs
    exact ⟨gs, hgs, hperm.trans hperm'⟩

/-- Members with different names are bindings of different names. -/
theorem Distinct.names {ms : List (List Piece × Tree)} (h : Distinct ms) {depth : Nat}
    {es : List (String × Json)} (hes : memberValues? ms depth = some es) :
    es.Pairwise fun a b => a.1 ≠ b.1 := by
  induction ms generalizing es with
  | nil =>
    cases hes
    exact .nil
  | cons m ms ih =>
    obtain ⟨pieces, t⟩ := m
    obtain ⟨hfirst, hms⟩ := List.pairwise_cons.mp h
    obtain ⟨cs, v, rest, hcs, -, hrest, rfl⟩ := memberValues?_cons.mp hes
    refine List.pairwise_cons.mpr ⟨fun e he heq => ?_, ih hms hrest⟩
    -- a binding behind the first one comes from a member behind the first one
    obtain ⟨n, hn, hname⟩ := exists_member hrest he
    exact hfirst n hn cs hcs (by rw [hname, ← heq, String.toList_ofList])

/-- The table of an object does not depend on the order of its members. -/
theorem table_perm {ms ns : List (List Piece × Tree)} (h : Distinct ms) (hperm : ms.Perm ns)
    (depth : Nat) :
    (memberValues? ms depth).map Table.ofList = (memberValues? ns depth).map Table.ofList := by
  cases hms : memberValues? ms depth with
  | some es =>
    obtain ⟨fs, hfs, hes⟩ := memberValues?_perm hperm hms
    rw [hfs, Option.map_some, Option.map_some, Table.ofList_perm hes (h.names hms)]
  | none =>
    cases hns : memberValues? ns depth with
    | none => rfl
    | some fs =>
      obtain ⟨es, hes, -⟩ := memberValues?_perm hperm.symm hns
      cases hms.symm.trans hes

mutual

/-- **Reordered trees have the same value.** -/
theorem Reorders.value?_eq {t u : Tree} : Reorders t u → ∀ depth, t.value? depth = u.value? depth
  | .null, _ => rfl
  | .bool _, _ => rfl
  | .number _, _ => rfl
  | .string _, _ => rfl
  | .array _, 0 => rfl
  | .array h, depth + 1 => by rw [Tree.value?, Tree.value?, h.itemValues?_eq depth]
  | .object _ _ _, 0 => rfl
  | .object hdistinct hperm h, depth + 1 => by
    have htable := table_perm hdistinct hperm depth
    rw [h.memberValues?_eq depth] at htable
    rw [Tree.value?, Tree.value?]
    simpa only [Option.map_map, Function.comp_def] using congrArg (Option.map Json.object) htable

theorem ReordersItems.itemValues?_eq {ts us : List Tree} :
    ReordersItems ts us → ∀ depth, itemValues? ts depth = itemValues? us depth
  | .nil, _ => rfl
  | .cons h hrest, depth => by
    rw [itemValues?, itemValues?, h.value?_eq depth, hrest.itemValues?_eq depth]

theorem ReordersMembers.memberValues?_eq {ms ns : List (List Piece × Tree)} :
    ReordersMembers ms ns → ∀ depth, memberValues? ms depth = memberValues? ns depth
  | .nil, _ => rfl
  | .cons h hrest, depth => by
    rw [memberValues?, memberValues?, h.value?_eq depth, hrest.memberValues?_eq depth]

end

end ScriptedActions.Json
