import ScriptedActions.Script.Engine

/-!
# Integers that scripts can hold

A JSON value may have integers that no script integer can hold, and then it is not given to a
script. `Json.Contains` says which integers a value has, at whatever depth, and what is proved here
says that the search for one that is too large finds one if there is any.

A script is given three values. The first of them that has such an integer is named in the refusal
of the run, and a run that is refused does nothing.
-/

set_option autoImplicit false

namespace ScriptedActions

namespace Json

/-- An integer occurs in a value, at some depth. -/
inductive Contains (n : Int) : Json → Prop
  | int : Contains n (.int n)
  | item {items : List Json} {v : Json} : v ∈ items → Contains n v → Contains n (.array items)
  | member {members : List (String × Json)} {k : String} {v : Json} : (k, v) ∈ members →
    Contains n v → Contains n (.object members)

/-- No integer of a value is too large for a script integer. -/
def Fits (v : Json) : Prop := ∀ n, v.Contains n → n ≤ maxInt

end Json

namespace Script

open Json (Contains Fits maxInt)

/-! ## The search -/

mutual

theorem contains_of_oversized {n : Int} :
    ∀ {v : Json}, oversized v = some n → v.Contains n ∧ maxInt < n
  | .int z, h => by
    unfold oversized at h
    split at h
    · cases h
      exact ⟨.int, ‹_›⟩
    · cases h
  | .array items, h => by
    have hitem : oversizedItem items = some n := h
    obtain ⟨v, hv, hn, hlarge⟩ := contains_of_oversizedItem hitem
    exact ⟨.item hv hn, hlarge⟩
  | .object members, h => by
    have hmember : oversizedMember members = some n := h
    obtain ⟨k, v, hv, hn, hlarge⟩ := contains_of_oversizedMember hmember
    exact ⟨.member hv hn, hlarge⟩

theorem contains_of_oversizedItem {n : Int} : ∀ {items : List Json},
    oversizedItem items = some n → ∃ v ∈ items, v.Contains n ∧ maxInt < n
  | v :: rest, h => by
    unfold oversizedItem at h
    rw [Option.orElse_eq_or] at h
    rcases Option.or_eq_some_iff.mp h with h | ⟨-, h⟩
    · exact ⟨v, List.mem_cons_self, contains_of_oversized h⟩
    · obtain ⟨w, hw, hn⟩ := contains_of_oversizedItem h
      exact ⟨w, List.mem_cons_of_mem v hw, hn⟩

theorem contains_of_oversizedMember {n : Int} : ∀ {members : List (String × Json)},
    oversizedMember members = some n → ∃ k v, (k, v) ∈ members ∧ v.Contains n ∧ maxInt < n
  | (k, v) :: rest, h => by
    unfold oversizedMember at h
    rw [Option.orElse_eq_or] at h
    rcases Option.or_eq_some_iff.mp h with h | ⟨-, h⟩
    · exact ⟨k, v, List.mem_cons_self, contains_of_oversized h⟩
    · obtain ⟨l, w, hw, hn⟩ := contains_of_oversizedMember h
      exact ⟨l, w, List.mem_cons_of_mem (k, v) hw, hn⟩

end

theorem oversizedItem_isSome {items : List Json} {v : Json} (hv : v ∈ items)
    (h : (oversized v).isSome) : (oversizedItem items).isSome := by
  induction items with
  | nil => cases hv
  | cons w rest ih =>
    unfold oversizedItem
    rw [Option.orElse_eq_or, Option.isSome_or, Bool.or_eq_true]
    rcases List.mem_cons.mp hv with rfl | hv
    · exact .inl h
    · exact .inr (ih hv)

theorem oversizedMember_isSome {members : List (String × Json)} {k : String} {v : Json}
    (hv : (k, v) ∈ members) (h : (oversized v).isSome) : (oversizedMember members).isSome := by
  induction members with
  | nil => cases hv
  | cons e rest ih =>
    unfold oversizedMember
    rw [Option.orElse_eq_or, Option.isSome_or, Bool.or_eq_true]
    rcases List.mem_cons.mp hv with rfl | hv
    · exact .inl h
    · exact .inr (ih hv)

theorem oversized_isSome {v : Json} {n : Int} (h : v.Contains n) (hlarge : maxInt < n) :
    (oversized v).isSome := by
  induction h with
  | int =>
    unfold oversized
    rw [if_pos hlarge]
    rfl
  | item hv _ ih => exact oversizedItem_isSome hv ih
  | member hv _ ih => exact oversizedMember_isSome hv ih

/-- **The search fails on the values that fit, and on no others.** -/
theorem oversized_eq_none_iff {v : Json} : oversized v = none ↔ v.Fits := by
  constructor
  · intro h n hn
    refine Int.not_lt.mp fun hlarge => ?_
    have hfound := oversized_isSome hn hlarge
    rw [h] at hfound
    cases hfound
  · intro h
    refine Option.eq_none_iff_forall_ne_some.mpr fun n hn => ?_
    obtain ⟨hcontains, hlarge⟩ := contains_of_oversized hn
    exact absurd (h n hcontains) (Int.not_le.mpr hlarge)

/-! ## Refusals -/

namespace Bindings

/-- The values of a script by their names, in the order in which they are looked at. -/
def named (b : Bindings) : List (String × Json) :=
  [("reply", .object b.reply.data), ("request", .object b.request), ("rpc", b.rpc)]

theorem refusal?_eq_findSome? (b : Bindings) :
    b.refusal? = b.named.findSome? fun e => (oversized e.2).map (outOfRange e.1) := by
  unfold refusal? named
  simp only [Option.orElse_eq_or, List.findSome?, oversized]
  rcases oversizedMember b.reply.data with _ | n
  · rcases oversizedMember b.request with _ | n
    · rcases oversized b.rpc with _ | n <;> rfl
    · rfl
  · rfl

/-- A script is given its values if all of them fit. -/
theorem refusal?_eq_none_iff (b : Bindings) :
    b.refusal? = none ↔ ∀ e ∈ b.named, e.2.Fits := by
  simp only [refusal?_eq_findSome?, List.findSome?_eq_none_iff, Option.map_eq_none_iff,
    oversized_eq_none_iff]

/-- What is refused is the first value that does not fit. -/
theorem refusal?_eq_some {b : Bindings} {refused : ScriptError}
    (h : b.refusal? = some refused) :
    ∃ before name v after n, b.named = before ++ (name, v) :: after ∧
      (∀ e ∈ before, e.2.Fits) ∧ v.Contains n ∧ maxInt < n ∧ refused = outOfRange name n := by
  rw [refusal?_eq_findSome?] at h
  obtain ⟨before, ⟨name, v⟩, after, hnamed, hv, hbefore⟩ := List.findSome?_eq_some_iff.mp h
  obtain ⟨n, hn, rfl⟩ := Option.map_eq_some_iff.mp hv
  obtain ⟨hcontains, hlarge⟩ := contains_of_oversized hn
  refine ⟨before, name, v, after, n, hnamed, fun e he => ?_, hcontains, hlarge, rfl⟩
  exact oversized_eq_none_iff.mp (Option.map_eq_none_iff.mp (hbefore e he))

end Bindings

end Script

end ScriptedActions
