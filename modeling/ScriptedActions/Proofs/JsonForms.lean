import ScriptedActions.Proofs.Marshalling

/-!
# Values and their JSON forms

What a script writes to an output is kept as JSON, and JSON has nothing for some values of scripts:
functions, moments, blobs, ranges, reply objects, and floats that are not finite. Two different
things become of these.

**A float that is not finite is silently written as `null`**, wherever it is in the value: the JSON
form of a value is that of the value with such floats replaced by the unit
(`Value.toJson_blanked`). **Everything else is refused.** A value has no JSON form exactly if
something is in it that JSON has nothing for (`Value.toJson_isError_iff`).

An object map that stands for a piece of JSON text is not looked into: the text is what is written,
or refused if it is no JSON text.
-/

set_option autoImplicit false

namespace ScriptedActions.Script.Value

/-- What a value is made of, at any depth, as far as the JSON form of the value depends on it. -/
inductive Reaches : Value → Value → Prop
  | self (v : Value) : Reaches v v
  | item {items : Array Value} {v w : Value} : v ∈ items.toList → Reaches v w →
    Reaches (.array items) w
  | entry {entries : List (String × Value)} {e : String × Value} {w : Value} :
    spelled? entries = none → e ∈ entries → Reaches e.2 w → Reaches (.map entries) w

/-- Why a value has no JSON form, whatever its items or entries are. Every float has one. -/
def unfit? : Value → Option String
  | unit | bool _ | int _ | float _ | char _ | text _ | array _ => none
  | map entries =>
    match spelled? entries with
    | some (.error reason) => some reason
    | _ => none
  | v => some v.noJson

/-! ## Refused values -/

mutual

theorem unfit_of_toJson {reason : String} : ∀ {v : Value}, v.toJson = .error reason →
    ∃ w, v.Reaches w ∧ w.unfit? = some reason
  | array ⟨items⟩, h => by
    have hitems : toJsonItems items = .error reason := by
      unfold toJson at h
      cases hr : toJsonItems items with
      | error e =>
        rw [hr] at h
        cases h
        rfl
      | ok js =>
        rw [hr] at h
        cases h
    obtain ⟨v, hv, w, hw, hreason⟩ := unfit_of_toJsonItems hitems
    exact ⟨w, .item hv hw, hreason⟩
  | map entries, h => by
    unfold toJson at h
    split at h
    case h_1 r hspelled =>
      refine ⟨map entries, .self _, ?_⟩
      simp only [unfit?, hspelled, h]
    case h_2 hspelled =>
      have hentries : toJsonEntries entries = .error reason := by
        cases hr : toJsonEntries entries with
        | error e =>
          rw [hr] at h
          cases h
          rfl
        | ok js =>
          rw [hr] at h
          cases h
      obtain ⟨e, he, w, hw, hreason⟩ := unfit_of_toJsonEntries hentries
      exact ⟨w, .entry hspelled he hw, hreason⟩
  | blob _, h | range _ _ _, h | steps _ _ _, h | floatSteps _ _ _, h | chars _, h | bits _, h
  | fn _ _ _ _, h | reply _, h | instant _, h | undeclared _, h | shared _, h =>
    ⟨_, .self _, by cases h; rfl⟩

theorem unfit_of_toJsonItems {reason : String} : ∀ {items : List Value},
    toJsonItems items = .error reason → ∃ v ∈ items, ∃ w, v.Reaches w ∧ w.unfit? = some reason
  | v :: rest, h => by
    unfold toJsonItems at h
    cases hv : v.toJson with
    | error e =>
      rw [hv] at h
      cases h
      exact ⟨v, List.mem_cons_self, unfit_of_toJson hv⟩
    | ok j =>
      cases hr : toJsonItems rest with
      | error e =>
        rw [hv, hr] at h
        cases h
        obtain ⟨w, hw, hreason⟩ := unfit_of_toJsonItems hr
        exact ⟨w, List.mem_cons_of_mem v hw, hreason⟩
      | ok js =>
        rw [hv, hr] at h
        cases h

theorem unfit_of_toJsonEntries {reason : String} : ∀ {entries : List (String × Value)},
    toJsonEntries entries = .error reason →
      ∃ e ∈ entries, ∃ w, e.2.Reaches w ∧ w.unfit? = some reason
  | (k, v) :: rest, h => by
    unfold toJsonEntries at h
    cases hv : v.toJson with
    | error e =>
      rw [hv] at h
      cases h
      exact ⟨(k, v), List.mem_cons_self, unfit_of_toJson hv⟩
    | ok j =>
      cases hr : toJsonEntries rest with
      | error e =>
        rw [hv, hr] at h
        cases h
        obtain ⟨w, hw, hreason⟩ := unfit_of_toJsonEntries hr
        exact ⟨w, List.mem_cons_of_mem (k, v) hw, hreason⟩
      | ok js =>
        rw [hv, hr] at h
        cases h

end

theorem toJsonItems_isError {items : List Value} {v : Value} {reason : String} (hv : v ∈ items)
    (h : v.toJson = .error reason) : ∃ r, toJsonItems items = .error r := by
  induction items with
  | nil => cases hv
  | cons w rest ih =>
    unfold toJsonItems
    cases hw : w.toJson with
    | error r => exact ⟨r, rfl⟩
    | ok j =>
      rcases List.mem_cons.mp hv with rfl | hv
      · cases hw.symm.trans h
      · obtain ⟨r, hr⟩ := ih hv
        exact ⟨r, by rw [hr]; rfl⟩

theorem toJsonEntries_isError {entries : List (String × Value)} {e : String × Value}
    {reason : String} (he : e ∈ entries) (h : e.2.toJson = .error reason) :
    ∃ r, toJsonEntries entries = .error r := by
  induction entries with
  | nil => cases he
  | cons d rest ih =>
    obtain ⟨k, w⟩ := d
    unfold toJsonEntries
    cases hw : w.toJson with
    | error r => exact ⟨r, rfl⟩
    | ok j =>
      rcases List.mem_cons.mp he with rfl | he
      · cases hw.symm.trans h
      · obtain ⟨r, hr⟩ := ih he
        exact ⟨r, by rw [hr]; rfl⟩

theorem toJson_of_unfit {reason : String} : ∀ {v : Value}, v.unfit? = some reason →
    v.toJson = .error reason
  | map entries, h => by
    simp only [unfit?] at h
    split at h
    case h_1 hspelled =>
      cases h
      simp only [toJson, hspelled]
    case h_2 => cases h
  | blob _, h | range _ _ _, h | steps _ _ _, h | floatSteps _ _ _, h | chars _, h | bits _, h
  | fn _ _ _ _, h | reply _, h | instant _, h | undeclared _, h | shared _, h => by
    cases h
    rfl

/-- What a value is made of has to have a JSON form. -/
theorem Reaches.toJson_isError {v w : Value} {reason : String} (h : v.Reaches w)
    (hw : w.toJson = .error reason) : ∃ r, v.toJson = .error r := by
  induction h with
  | self v => exact ⟨reason, hw⟩
  | @item items v w hv _ ih =>
    obtain ⟨items⟩ := items
    obtain ⟨r, hr⟩ := ih hw
    obtain ⟨r, hr⟩ := toJsonItems_isError hv hr
    refine ⟨r, ?_⟩
    unfold toJson
    rw [hr]
    rfl
  | entry hspelled he _ ih =>
    obtain ⟨r, hr⟩ := ih hw
    obtain ⟨r, hr⟩ := toJsonEntries_isError he hr
    refine ⟨r, ?_⟩
    simp only [toJson, hspelled, hr]
    rfl

/-- **A value has no JSON form exactly if something in it has none by itself.** -/
theorem toJson_isError_iff (v : Value) :
    (∃ reason, v.toJson = .error reason) ↔ ∃ w reason, v.Reaches w ∧ w.unfit? = some reason := by
  constructor
  · rintro ⟨reason, h⟩
    obtain ⟨w, hw, hreason⟩ := unfit_of_toJson h
    exact ⟨w, reason, hw, hreason⟩
  · rintro ⟨w, reason, hw, hreason⟩
    exact hw.toJson_isError (toJson_of_unfit hreason)

/-! ## Floats that are not finite -/

mutual

/-- A value with the unit in the place of each float that is not finite. -/
def blanked : Value → Value
  | float x => if x.isNaN || x.isInf then unit else float x
  | array ⟨items⟩ => array ⟨blankedItems items⟩
  | map entries =>
    match spelled? entries with
    | some _ => map entries
    | none => map (blankedEntries entries)
  | v => v

/-- The items of an array with the unit in the place of such floats. -/
def blankedItems : List Value → List Value
  | [] => []
  | v :: rest => blanked v :: blankedItems rest

/-- The entries of an object map with the unit in the place of such floats. -/
def blankedEntries : List (String × Value) → List (String × Value)
  | [] => []
  | (k, v) :: rest => (k, blanked v) :: blankedEntries rest

end

theorem spelled?_blankedEntries {entries : List (String × Value)} (h : spelled? entries = none) :
    spelled? (blankedEntries entries) = none := by
  cases entries with
  | nil => rfl
  | cons e rest =>
    obtain ⟨k, v⟩ := e
    simp only [blankedEntries, spelled?] at h ⊢
    split at h
    · split at h <;> cases h
    case isFalse hk => rw [if_neg hk]

mutual

/-- **A float that is not finite is written as `null`**, wherever it is in a value. -/
theorem toJson_blanked : ∀ v : Value, v.blanked.toJson = v.toJson
  | float x => by
    unfold blanked
    split
    case isTrue hx => simp only [toJson, hx, if_true]
    case isFalse => rfl
  | array ⟨items⟩ => by
    simp only [blanked, toJson, toJsonItems_blankedItems items]
  | map entries => by
    unfold blanked
    split
    · rfl
    case h_2 hspelled =>
      simp only [toJson, hspelled, spelled?_blankedEntries hspelled,
        toJsonEntries_blankedEntries entries]
  | unit | bool _ | int _ | char _ | text _ | blob _ | range _ _ _ | steps _ _ _
  | floatSteps _ _ _ | chars _ | bits _ | fn _ _ _ _ | reply _ | instant _ | undeclared _
  | shared _ => rfl

theorem toJsonItems_blankedItems :
    ∀ items : List Value, toJsonItems (blankedItems items) = toJsonItems items
  | [] => rfl
  | v :: rest => by
    simp only [blankedItems, toJsonItems, toJson_blanked v, toJsonItems_blankedItems rest]

theorem toJsonEntries_blankedEntries : ∀ entries : List (String × Value),
    toJsonEntries (blankedEntries entries) = toJsonEntries entries
  | [] => rfl
  | (k, v) :: rest => by
    simp only [blankedEntries, toJsonEntries, toJson_blanked v, toJsonEntries_blankedEntries rest]

end

/-- What is written of a value is the value without such floats, if that is a plain one. -/
theorem ofJson_toJson_blanked {v : Value} (h : v.blanked.IsPlain) :
    ∃ j, v.toJson = .ok j ∧ ofJson j = v.blanked := by
  obtain ⟨j, hj, hv⟩ := h.ofJson_toJson
  exact ⟨j, (toJson_blanked v).symm.trans hj, hv⟩

end ScriptedActions.Script.Value
