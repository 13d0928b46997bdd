import ScriptedActions.Proofs.Table
import ScriptedActions.ReplyObjects

/-!
# What copies of a reply object hold

All that can be asked of a reply object and of its copies is told by the defaults and by what was done
before. `stands` says whether an object is there, and `recalled` which value it has of a field: it goes
back to the last value that this very object was given, and if that is before the object was copied it
goes on with the object that it was copied from.

The proof is a simulation. `objectAt` makes an object of the history; a step that is done to the objects
of a history gives the objects of the history with that step (`act_of_agrees`), and a run does what its
steps do.
-/

set_option autoImplicit false

namespace ScriptedActions

/-! ## Tables whose values are made of the names -/

namespace Table

variable {α β : Type}

/-- Changes every value, going by its name. -/
def mapEntries (f : String → α → β) (t : Table α) : Table β := List.map (fun e => (e.1, f e.1 e.2)) t

variable (f : String → α → α) (t : Table α)

@[simp] theorem keys_mapEntries : (t.mapEntries f).keys = t.keys := by
  unfold mapEntries keys
  rw [List.map_map]
  rfl

theorem get?_mapEntries (k : String) : (t.mapEntries f).get? k = (t.get? k).map (f k) := by
  induction t with
  | nil => rfl
  | cons e rest ih =>
    obtain ⟨n, w⟩ := e
    show (if k = n then some (f n w) else get? (mapEntries f rest) k) =
      (if k = n then some w else get? rest k).map (f k)
    split
    case isTrue hk => rw [hk, Option.map_some]
    case isFalse => exact ih

@[simp] theorem contains_mapEntries (k : String) : (t.mapEntries f).contains k = t.contains k := by
  unfold contains
  rw [get?_mapEntries, Option.isSome_map]

/-- To replace a value is to change what is made of its name. -/
theorem replace_mapEntries {t : Table α} (h : t.Sorted) (k : String) (v : α) :
    (t.mapEntries f).replace k v = t.mapEntries fun n w => if n = k then v else f n w := by
  induction t with
  | nil => rfl
  | cons e rest ih =>
    obtain ⟨n, w⟩ := e
    obtain ⟨hn, hrest⟩ := List.pairwise_cons.mp h
    show Table.replace ((n, f n w) :: mapEntries f rest) k v =
      (n, if n = k then v else f n w) :: mapEntries (fun n w => if n = k then v else f n w) rest
    by_cases hk : n = k
    · subst hk
      -- the names behind it are other ones, so nothing is changed there
      have hothers : mapEntries (fun m w => if m = n then v else f m w) rest = mapEntries f rest := by
        refine List.map_congr_left fun e he => congrArg (e.1, ·) (if_neg ?_)
        exact (hn e.1 (List.mem_map_of_mem he)).ne'
      simp [replace, hothers]
    · simp [replace, hk, Ne.symm hk, ih hrest]

end Table

namespace ReplyObjects

/-! ## Histories, the last step first -/

mutual

/-- Whether an object is there after some steps. -/
def stands (past : List ReplyStep) (i : Nat) : Bool :=
  match past with
  | [] => i = 0
  | s :: past =>
    match s.operation with
    | .copy => stands past i || (stands past s.on && i = made past)
    | .take => stands past i && i ≠ s.on
    | _ => stands past i

/-- How many objects were made in some steps. -/
def made (past : List ReplyStep) : Nat :=
  match past with
  | [] => 1
  | s :: past =>
    match s.operation with
    | .copy => if stands past s.on then made past + 1 else made past
    | _ => made past

end

/-- The value that an object has of a field after some steps: the last one that it was given since it
was made, or the one that the object it was copied from had then, or the default. -/
def recalled (past : List ReplyStep) (i : Nat) (field : String) (default : Json) : Json :=
  match past with
  | [] => default
  | s :: past =>
    match s.operation with
    | .set f v => if s.on = i ∧ field = f then v else recalled past i field default
    | .copy =>
      if stands past s.on ∧ i = made past then recalled past s.on field default
      else recalled past i field default
    | _ => recalled past i field default

/-- The object that is there after some steps. -/
def objectAt (defaults : Table Json) (past : List ReplyStep) (i : Nat) : ReplyObject :=
  ⟨defaults.mapEntries (recalled past i)⟩

/-- The answer to an operation after some steps. -/
def answerAt (defaults : Table Json) (past : List ReplyStep) (s : ReplyStep) : Option ReplyAnswer :=
  if stands past s.on then
    match s.operation with
    | .set f _ => if defaults.contains f then some .done else some (.refused (.undeclaredField f))
    | .get f => some (.value ((defaults.get? f).map (recalled past s.on f)))
    | .contains f => some (.truth (decide (f ∈ defaults.keys)))
    | .keys => some (.names defaults.keys)
    | .size => some (.count defaults.keys.length)
    | .isFalsy => some (.truth (decide (defaults.keys.length = 0)))
    | .display => some (.text (objectAt defaults past s.on).render)
    | .copy => some (.copied (made past))
    | .take => some (.outputs (objectAt defaults past s.on).data)
  else none

/-- The answers to some steps, after others. -/
def answersFrom (defaults : Table Json) (past : List ReplyStep) :
    List ReplyStep → List (Option ReplyAnswer)
  | [] => []
  | s :: rest => answerAt defaults past s :: answersFrom defaults (s :: past) rest

theorem stands_lt {past : List ReplyStep} {i : Nat} (h : stands past i) : i < made past := by
  induction past with
  | nil => simp_all [stands, made]
  | cons s past ih =>
    obtain ⟨on, operation⟩ := s
    cases operation <;> simp only [stands, made] at h ⊢
    case copy =>
      rw [Bool.or_eq_true, Bool.and_eq_true, decide_eq_true_eq] at h
      rcases h with h | ⟨hon, rfl⟩
      · have hlt := ih h
        split <;> omega
      · rw [if_pos hon]
        omega
    case take => exact ih (Bool.and_eq_true _ _ ▸ h).1
    all_goals exact ih h

/-! ## Steps -/

section Others

variable {s : ReplyStep} {past : List ReplyStep} {i : Nat} (hon : s.on ≠ i) (hi : i < made past)

include hon hi

/-- A step leaves alone what it is not done to, unless it makes it. -/
theorem stands_other : stands (s :: past) i = stands past i := by
  obtain ⟨on, operation⟩ := s
  cases operation <;> simp only [stands]
  case copy => simp [hi.ne]
  case take => simp [Ne.symm hon]

theorem recalled_other (field : String) (default : Json) :
    recalled (s :: past) i field default = recalled past i field default := by
  obtain ⟨on, operation⟩ := s
  cases operation <;> simp only [recalled]
  case set => rw [if_neg fun h => hon h.1]
  case copy => rw [if_neg fun h => hi.ne h.2]

end Others

/-- The objects are those of a history. -/
structure Agrees (rs : ReplyObjects) (defaults : Table Json) (past : List ReplyStep) : Prop where
  length : rs.all.length = made past
  get? : ∀ i, rs.get? i = if stands past i then some (objectAt defaults past i) else none

variable {rs : ReplyObjects} {defaults : Table Json} {past : List ReplyStep}

theorem agrees_begin (defaults : Table Json) : (begin defaults).Agrees defaults [] := by
  refine ⟨rfl, fun i => ?_⟩
  cases i with
  | zero =>
    have hsame : defaults.mapEntries (recalled [] 0) = defaults := List.map_id' defaults
    simp [begin, get?, stands, objectAt, hsame]
  | succ i => simp [begin, get?, stands]

theorem get?_put (rs : ReplyObjects) (i j : Nat) (r : Option ReplyObject) :
    (rs.put i r).get? j = if j = i ∧ i < rs.all.length then r else rs.get? j := by
  unfold get? put
  rw [List.getElem?_set]
  by_cases hj : i = j
  · subst hj
    by_cases hi : i < rs.all.length <;> simp [hi]
  · simp [hj, Ne.symm hj]

theorem get?_append (rs : ReplyObjects) (j : Nat) (r : ReplyObject) :
    (⟨rs.all ++ [some r]⟩ : ReplyObjects).get? j =
      if j = rs.all.length then some r else rs.get? j := by
  unfold get?
  rw [List.getElem?_append]
  by_cases hj : j = rs.all.length
  · simp [hj]
  · by_cases hlt : j < rs.all.length
    · simp [hj, hlt]
    · have hbehind : rs.all.length < j := by omega
      simp [hj, hlt, Nat.sub_eq_zero_iff_le, hbehind]

/-- Nothing is done to an object that is not there. -/
theorem Agrees.absent (h : rs.Agrees defaults past) {s : ReplyStep} (hs : ¬ stands past s.on) :
    rs.Agrees defaults (s :: past) := by
  have hmade : made (s :: past) = made past := by
    obtain ⟨on, operation⟩ := s
    cases operation <;> simp_all [made]
  have hstands : ∀ i, stands (s :: past) i = stands past i := by
    intro i
    by_cases hi : s.on = i
    · subst hi
      obtain ⟨on, operation⟩ := s
      cases operation <;> simp_all [stands]
    · by_cases hlt : i < made past
      · exact stands_other hi hlt
      · have hnew : ¬ stands (s :: past) i := fun h => hlt (hmade ▸ stands_lt h)
        have hold : ¬ stands past i := fun h => hlt (stands_lt h)
        simp [hnew, hold]
  refine ⟨h.length.trans hmade.symm, fun i => ?_⟩
  rw [h.get? i, hstands i]
  split
  case isTrue hi =>
    have hon : s.on ≠ i := fun heq => hs (heq ▸ hi)
    unfold objectAt
    rw [funext₂ (recalled_other hon (stands_lt hi))]
  case isFalse => rfl

theorem objectAt_other {s : ReplyStep} {i : Nat} (hon : s.on ≠ i) (hi : i < made past) :
    objectAt defaults (s :: past) i = objectAt defaults past i := by
  unfold objectAt
  rw [funext₂ (recalled_other hon hi)]

theorem objectAt_set (hsorted : defaults.Sorted) (on : Nat) (field : String) (v : Json) :
    objectAt defaults (⟨on, .set field v⟩ :: past) on =
      ⟨(objectAt defaults past on).data.replace field v⟩ := by
  unfold objectAt
  rw [Table.replace_mapEntries _ hsorted]
  simp [recalled]

theorem objectAt_copy {on : Nat} (hon : stands past on) :
    objectAt defaults (⟨on, .copy⟩ :: past) (made past) = objectAt defaults past on := by
  unfold objectAt
  simp [recalled, hon]

/-- A write to a declared field. -/
theorem Agrees.set (h : rs.Agrees defaults past) (hsorted : defaults.Sorted) {on : Nat}
    (hon : stands past on) (field : String) (v : Json) :
    (rs.put on (some ⟨(objectAt defaults past on).data.replace field v⟩)).Agrees defaults
      (⟨on, .set field v⟩ :: past) := by
  refine ⟨(List.length_set ..).trans h.length, fun i => ?_⟩
  rw [get?_put, h.length, h.get? i]
  by_cases hi : i = on
  · subst hi
    simp [stands_lt hon, objectAt_set hsorted, stands, hon]
  · by_cases hstands : stands past i
    · rw [objectAt_other (Ne.symm hi) (stands_lt hstands)]
      simp [hi, hstands, stands]
    · simp [hi, hstands, stands]

/-- A write to a field that is not declared: it counts for none of those that are. -/
theorem Agrees.refused (h : rs.Agrees defaults past) {on : Nat} {field : String}
    (hfield : defaults.contains field = false) (v : Json) :
    rs.Agrees defaults (⟨on, .set field v⟩ :: past) := by
  refine ⟨h.length, fun i => ?_⟩
  have hsame : objectAt defaults (⟨on, .set field v⟩ :: past) i = objectAt defaults past i := by
    unfold objectAt Table.mapEntries
    refine congrArg ReplyObject.mk (List.map_congr_left fun e he => ?_)
    have hne : e.1 ≠ field := by
      rintro rfl
      have hdeclared := (Table.contains_iff_mem_keys defaults e.1).mpr (List.mem_map_of_mem he)
      rw [hfield] at hdeclared
      cases hdeclared
    simp [recalled, hne]
  rw [hsame]
  exact h.get? i

theorem Agrees.copy (h : rs.Agrees defaults past) {on : Nat} (hon : stands past on) :
    (⟨rs.all ++ [some (objectAt defaults past on)]⟩ : ReplyObjects).Agrees defaults
      (⟨on, .copy⟩ :: past) := by
  refine ⟨?_, fun i => ?_⟩
  · simp [made, hon, h.length]
  · rw [get?_append, h.length, h.get? i]
    by_cases hi : i = made past
    · subst hi
      simp [stands, hon, objectAt_copy hon]
    · simp only [hi, if_false, stands, hon, decide_false, Bool.and_false, Bool.or_false]
      unfold objectAt
      simp [recalled, hi]

theorem Agrees.take (h : rs.Agrees defaults past) {on : Nat} (hon : stands past on) :
    (rs.put on none).Agrees defaults (⟨on, .take⟩ :: past) := by
  refine ⟨(List.length_set ..).trans h.length, fun i => ?_⟩
  rw [get?_put, h.length, h.get? i]
  by_cases hi : i = on
  · subst hi
    simp [stands_lt hon, stands]
  · simp only [hi, false_and, if_false, stands, ne_eq, not_false_eq_true, decide_true,
      Bool.and_true]
    rfl

theorem isEmpty_eq (r : ReplyObject) : r.isEmpty = decide (r.size = 0) := by
  unfold ReplyObject.isEmpty ReplyObject.size
  cases r.data <;> rfl

/-- **A step does to the objects of a history what it does to the history.** -/
theorem act_of_agrees (hsorted : defaults.Sorted) (h : rs.Agrees defaults past) (s : ReplyStep) :
    (rs.act s).1 = answerAt defaults past s ∧ (rs.act s).2.Agrees defaults (s :: past) := by
  unfold act answerAt
  -- an object that does not stand answers nothing
  by_cases hon : stands past s.on
  · rw [h.get?, if_pos hon, if_pos hon]
    obtain ⟨on, operation⟩ := s
    have hcontains : ∀ f, (objectAt defaults past on).contains f = defaults.contains f :=
      Table.contains_mapEntries _ defaults
    have hkeys : (objectAt defaults past on).keys = defaults.keys :=
      Table.keys_mapEntries _ defaults
    have hsize : (objectAt defaults past on).size = defaults.keys.length := by
      rw [← hkeys]
      exact (List.length_map _).symm
    have hget : ∀ f, (objectAt defaults past on).get? f =
      (defaults.get? f).map (recalled past on f) := Table.get?_mapEntries _ defaults
    -- only `set`, `copy` and `take` change any object
    cases operation with
    | set field v =>
      simp only [ReplyObject.set, hcontains]
      cases hfield : defaults.contains field with
      | true => exact ⟨rfl, h.set hsorted hon field v⟩
      | false => exact ⟨rfl, h.refused hfield v⟩
    | get field => exact ⟨by simp only [hget], h.length, h.get?⟩
    | contains field =>
      refine ⟨?_, h.length, h.get?⟩
      simp [hcontains, ← Table.contains_iff_mem_keys]
    | keys => exact ⟨by simp only [hkeys], h.length, h.get?⟩
    | size => exact ⟨by simp only [hsize], h.length, h.get?⟩
    | isFalsy =>
      refine ⟨?_, h.length, h.get?⟩
      simp only [isEmpty_eq, hsize]
    | display => exact ⟨rfl, h.length, h.get?⟩
    | copy => exact ⟨by rw [← h.length], h.copy hon⟩
    | take => exact ⟨rfl, h.take hon⟩
  · rw [h.get?, if_neg hon, if_neg hon]
    exact ⟨rfl, h.absent hon⟩

/-- Steps done one after the other. -/
theorem run_of_agrees (hsorted : defaults.Sorted) (h : rs.Agrees defaults past)
    (steps : List ReplyStep) :
    (rs.run steps).1 = answersFrom defaults past steps ∧
      (rs.run steps).2.Agrees defaults (steps.reverse ++ past) := by
  induction steps generalizing rs past with
  | nil => exact ⟨rfl, h⟩
  | cons s rest ih =>
    obtain ⟨hanswer, hagrees⟩ := act_of_agrees hsorted h s
    obtain ⟨hanswers, hrun⟩ := ih hagrees
    refine ⟨?_, ?_⟩
    · show (rs.act s).1 :: ((rs.act s).2.run rest).1 = _
      rw [hanswer, hanswers]
      rfl
    · rw [List.reverse_cons, List.append_assoc]
      exact hrun

/-! ## The main statement -/

/-- Steps that are done to other objects. -/
theorem others_of_agrees {i : Nat} (hsorted : defaults.Sorted) (h : rs.Agrees defaults past)
    (hi : stands past i) {steps : List ReplyStep} (hothers : ∀ s ∈ steps, s.on ≠ i) :
    (rs.run steps).2.get? i = rs.get? i := by
  induction steps generalizing rs past with
  | nil => rfl
  | cons s rest ih =>
    obtain ⟨hon, hrest⟩ := List.forall_mem_cons.mp hothers
    have hagrees := (act_of_agrees hsorted h s).2
    have hstands : stands (s :: past) i := (stands_other hon (stands_lt hi)).trans hi
    refine (ih hagrees hstands hrest).trans ?_
    rw [hagrees.get?, h.get?, if_pos hstands, if_pos hi, objectAt_other hon (stands_lt hi)]

/-- **What is done to a reply object and its copies, and what they hold then.** -/
theorem copies (entries : List (String × Json)) (steps : List ReplyStep) :
    let defaults := Table.ofList entries
    let answers := ((begin defaults).run steps).1
    let rs := ((begin defaults).run steps).2
    answers = answersFrom defaults [] steps ∧
      (∀ i, (rs.get? i).isSome = stands steps.reverse i) ∧
      (∀ i r, rs.get? i = some r →
        r.keys = defaults.keys ∧ r.keys.Pairwise (· < ·) ∧ r.size = r.keys.length ∧
          (r.isEmpty ↔ r.size = 0) ∧ (∀ field, r.contains field ↔ field ∈ r.keys) ∧
          ∀ field, r.get? field = (defaults.get? field).map (recalled steps.reverse i field)) ∧
      (∀ i r field v, rs.get? i = some r → field ∉ defaults.keys →
        rs.act ⟨i, .set field v⟩ = (some (.refused (.undeclaredField field)), rs)) ∧
      ∀ i more, (rs.get? i).isSome → (∀ s ∈ more, s.on ≠ i) →
        (rs.run more).2.get? i = rs.get? i := by
  intro defaults answers rs
  have hsorted : defaults.Sorted := Table.sorted_ofList entries
  obtain ⟨hanswers, hagrees⟩ := run_of_agrees hsorted (agrees_begin defaults) steps
  rw [List.append_nil] at hagrees
  have hstands : ∀ i, (rs.get? i).isSome = stands steps.reverse i := by
    intro i
    rw [hagrees.get? i]
    cases stands steps.reverse i <;> rfl
  have hobject : ∀ i r, rs.get? i = some r → r = objectAt defaults steps.reverse i := by
    intro i r hr
    rw [hagrees.get? i] at hr
    split at hr
    · exact (Option.some.inj hr).symm
    · cases hr
  refine ⟨hanswers, hstands, ?_, ?_, ?_⟩
  · intro i r hr
    have hkeys : r.keys = defaults.keys := by
      rw [hobject i r hr]
      exact Table.keys_mapEntries _ defaults
    refine ⟨hkeys, hkeys ▸ hsorted, (List.length_map _).symm, ?_, ?_, ?_⟩
    · rw [isEmpty_eq, decide_eq_true_eq]
    · exact Table.contains_iff_mem_keys r.data
    · rw [hobject i r hr]
      exact Table.get?_mapEntries _ defaults
  · intro i r field v hr hfield
    have hundeclared : r.contains field = false := by
      rw [hobject i r hr, ← Bool.not_eq_true]
      intro hcontains
      rw [ReplyObject.contains, objectAt, Table.contains_mapEntries] at hcontains
      exact hfield ((Table.contains_iff_mem_keys defaults field).mp hcontains)
    unfold act
    rw [hr]
    simp [ReplyObject.set, hundeclared]
  · intro i more hi hothers
    exact others_of_agrees hsorted hagrees ((hstands i).symm.trans hi) hothers

end ReplyObjects

end ScriptedActions
