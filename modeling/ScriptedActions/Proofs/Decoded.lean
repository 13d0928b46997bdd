import ScriptedActions.Json.Decoder
import ScriptedActions.Proofs.JsonDepth

/-!
# What a decoder gives

What can be said of a value that a decoder gave, whatever the text was: a whole number is in the range
that was asked for, a text passed its check, an item of a list is what the decoder of the items gives.

A record is filled member by member, and fields that are not needed may be missing. What holds of a
record is therefore said by a property of the fields that were read and of the record so far, which
every field keeps when it is stored (`Stores`). It holds in the end of a record of which all needed
fields were read (`record_gives`), and it does not matter whether an object or an array was read.
-/

set_option autoImplicit false

namespace ScriptedActions.Json

open Reader (Gives Anything gives_pure gives_fail gives_failNext gives_peekToken gives_skip gives_bound
  gives_word of_bind_ok run_bind)

variable {α β : Type} {depth : Nat} {P : α → Prop} {R : β → Prop}

theorem Reader.Gives.located {r : Reader α} (h : r.Gives depth P) :
    (Reader.located r).Gives depth P := by
  intro c a c' hc hrun
  unfold Reader.located at hrun
  split at hrun
  · cases hrun
    exact h c _ _ hc ‹_›
  · cases hrun

/-- A reader that stops in the end gives nothing. -/
theorem Reader.gives_never {r : Reader β} {f : β → String} :
    (r >>= fun b => Reader.mismatch (f b) : Reader α).Gives depth P := by
  intro c a c' _ hrun
  obtain ⟨b, c₁, -, hstop⟩ := of_bind_ok hrun
  cases hstop

namespace Decoder

theorem gives_check {r : Except Error α} (h : ∀ a, r = .ok a → P a) :
    (check r).Gives depth P := by
  intro c a c' hc hrun
  unfold check at hrun
  split at hrun
  · cases hrun
    exact ⟨hc, h a rfl⟩
  · cases hrun

theorem gives_refuseNext (expected : String) : (refuseNext expected : Reader α).Gives depth P := by
  refine Gives.located (Reader.gives_peek.bind fun x _ => ?_)
  split
  · exact Reader.gives_mismatch _
  · exact Reader.gives_mismatch _
  · exact Reader.gives_never

theorem textWith_gives (expected : String) {f : String → Except String α}
    (h : ∀ s a, f s = .ok a → P a) : (textWith expected f).read.Gives depth P := by
  refine gives_peekToken.bind fun x _ => ?_
  split
  · exact gives_failNext _
  · refine Gives.located (gives_skip.bind fun _ _ => Reader.gives_string.bind fun s _ => ?_)
    split
    · exact gives_pure (h s _ ‹_›)
    · exact Reader.gives_mismatch _
  · exact gives_refuseNext _

theorem text_gives : text.read.Gives depth Anything :=
  textWith_gives _ fun _ _ _ => trivial

theorem whole_gives (low high : Int) (expected : String) :
    (whole low high expected).read.Gives depth fun z => low ≤ z ∧ z ≤ high := by
  have hchecked (v : Json) : (check (wholeIn low high expected v)).Gives depth fun z =>
      low ≤ z ∧ z ≤ high := by
    refine gives_check ?_
    intro z hz
    unfold wholeIn at hz
    split at hz
    · split at hz
      · cases hz
        assumption
      · cases hz
    · cases hz
  refine gives_peekToken.bind fun x _ => ?_
  split
  · exact gives_failNext _
  · exact Gives.located
      (gives_skip.bind fun _ _ => (Reader.gives_number false depth).bind fun v _ => hchecked v)
  · split
    · exact Gives.located ((Reader.gives_number true depth).bind fun v _ => hchecked v)
    · exact gives_refuseNext _

theorem raw_gives : raw.read.Gives depth Anything := Reader.gives_rawValue

theorem map_gives {d : Decoder α} (f : α → β) (h : d.read.Gives depth fun a => R (f a)) :
    (d.map f).read.Gives depth R :=
  Gives.map f h

/-! ## Arrays and objects -/

theorem gives_enclosed {inside : Reader α} {close : Reader Unit}
    (hinside : ∀ d, depth = d + 2 → inside.Gives (d + 1) P)
    (hclose : ∀ d, close.Gives d Anything) : (enclosed inside close).Gives depth P := by
  refine Gives.located ?_
  refine Gives.enclosed (fun d hd => ?_) hclose
  intro c a c' hc hrun
  dsimp only at hrun
  split at hrun
  · cases hrun
    exact hinside d hd c _ _ hc ‹_›
  · split at hrun <;> cases hrun

theorem gives_itemsWith {d : Reader α} (hd : d.Gives depth P) (fuel : Nat) (first : Bool)
    {done : List α} (hdone : ∀ a ∈ done, P a) :
    (itemsWith d fuel first done).Gives depth fun as => ∀ a ∈ as, P a := by
  induction fuel generalizing first done with
  | zero => exact gives_fail _
  | succ fuel ih =>
    refine (Reader.gives_moreItems first).bind fun more _ => ?_
    split
    · refine hd.bind fun b hb => ih false ?_
      intro a ha
      rcases List.mem_cons.mp ha with rfl | ha
      · exact hb
      · exact hdone a ha
    · exact gives_pure fun a ha => hdone a (List.mem_reverse.mp ha)

theorem list_gives {d : Decoder α} (hd : ∀ k, depth = k + 2 → d.read.Gives (k + 1) P) :
    (list d).read.Gives depth fun as => ∀ a ∈ as, P a := by
  refine gives_peekToken.bind fun x _ => ?_
  split
  · exact gives_failNext _
  · refine gives_enclosed (fun k hk => ?_) fun _ => Reader.gives_endList
    exact gives_bound.bind fun fuel _ => gives_itemsWith (hd k hk) fuel true nofun
  · exact gives_refuseNext _

theorem gives_entriesWith {d : Reader α} (hd : d.Gives depth P) (fuel : Nat) (first : Bool)
    {done : Table α} (hdone : done.Sorted) :
    (entriesWith d fuel first done).Gives depth Table.Sorted := by
  induction fuel generalizing first done with
  | zero => exact gives_fail _
  | succ fuel ih =>
    refine (Reader.gives_moreMembers first).bind fun more _ => ?_
    split
    · refine Reader.gives_memberName.bind fun name _ => Reader.gives_colon.bind fun _ _ => ?_
      exact hd.bind fun a _ => ih false (hdone.insert name a)
    · exact gives_pure hdone

/-- The members of an object that is read as a table stand in the order of their names. -/
theorem table_gives {d : Decoder α} (hd : ∀ k, depth = k + 2 → d.read.Gives (k + 1) P) :
    (table d).read.Gives depth Table.Sorted := by
  refine gives_peekToken.bind fun x _ => ?_
  split
  · exact gives_failNext _
  · refine gives_enclosed (fun k hk => ?_) fun _ => Reader.gives_endObject
    exact gives_bound.bind fun fuel _ => gives_entriesWith (hd k hk) fuel true Table.sorted_nil
  · exact gives_refuseNext _

theorem optional_gives {d : Decoder α} (hd : d.read.Gives depth Anything) :
    (optional d).read.Gives depth Anything := by
  refine gives_peekToken.bind fun x _ => ?_
  split
  · exact gives_skip.bind fun _ _ => (gives_word _).bind fun _ _ => gives_pure trivial
  · exact Gives.map some (hd.weaken fun _ _ => trivial)

/-! ## Records -/

/-- A property of the names of the fields that were read, and of the record so far. -/
abbrev Filling (α : Type) : Type := List String → α → Prop

/-- A field keeps a property when it is stored. -/
def Stores (I : Filling α) (depth : Nat) (f : Field α) : Prop :=
  f.decoder.read.Gives depth fun store => ∀ seen a, I seen a → I (f.name :: seen) (store a)

/-- A property holds of a record, all of whose needed fields were read. -/
def IsFilled (I : Filling α) (fields : List (Field α)) (a : α) : Prop :=
  ∃ seen, I seen a ∧ ∀ f ∈ fields, f.required → f.name ∈ seen

variable {I : Filling α} {fields : List (Field α)}

theorem needed_of_checkMissing {seen : List String} (h : checkMissing fields seen = .ok ()) :
    ∀ f ∈ fields, f.required → f.name ∈ seen := by
  intro f hf hrequired
  unfold checkMissing at h
  split at h
  · cases h
  · have hseen := List.find?_eq_none.mp ‹_› f hf
    simp only [hrequired, Bool.true_and, Bool.not_eq_true', Bool.not_eq_false] at hseen
    exact List.contains_iff_mem.mp hseen

theorem checkMissing_of_needed {seen : List String}
    (h : ∀ f ∈ fields, f.required → f.name ∈ seen) : checkMissing fields seen = .ok () := by
  unfold checkMissing
  split
  · rename_i f hfound
    have hlacks := List.find?_some hfound
    simp only [Bool.and_eq_true, Bool.not_eq_true', ← Bool.not_eq_true,
      List.contains_iff_mem] at hlacks
    exact absurd (h f (List.mem_of_find?_eq_some hfound) hlacks.1) hlacks.2
  · rfl

theorem gives_membersWith (hfields : ∀ f ∈ fields, Stores I depth f) (fuel : Nat) (first : Bool)
    {seen : List String} {a : α} (ha : I seen a) :
    (membersWith fields fuel first seen a).Gives depth (IsFilled I fields) := by
  induction fuel generalizing first seen a with
  | zero => exact gives_fail _
  | succ fuel ih =>
    refine (Reader.gives_moreMembers first).bind fun more _ => ?_
    split
    · refine Reader.gives_memberName.bind fun name _ => ?_
      split
      · exact Reader.gives_colon.bind fun _ _ => Reader.gives_skipValue.bind fun _ _ => ih false ha
      · rename_i f hfound
        have hname := List.find?_some hfound
        obtain rfl : f.name = name := beq_iff_eq.mp hname
        split
        · exact Reader.gives_mismatch _
        · refine Reader.gives_colon.bind fun _ _ => ?_
          refine (hfields f (List.mem_of_find?_eq_some hfound)).bind fun store hstore => ?_
          exact ih false (hstore seen a ha)
    · refine (gives_check (P := fun _ => checkMissing fields seen = .ok ()) ?_).bind fun _ h => ?_
      · intro _ h
        exact h
      · exact gives_pure ⟨seen, ha, needed_of_checkMissing h⟩

/-- In an array the fields come in their order; those at its end may be missing. -/
theorem gives_positionsWith (kind : String) (total : Nat) (hfields : ∀ f ∈ fields, Stores I depth f)
    (n : Nat) (more : Bool) {seen : List String} {a : α} (ha : I seen a) :
    (positionsWith kind total fields n more a).Gives depth fun b =>
      ∃ read, I read b ∧ (∀ k ∈ seen, k ∈ read) ∧ ∀ f ∈ fields, f.required → f.name ∈ read := by
  induction fields generalizing n more seen a with
  | nil => exact gives_pure ⟨seen, ha, fun _ hk => hk, nofun⟩
  | cons f fields ih =>
    have hrest {n : Nat} {more : Bool} {seen : List String} {a : α} (ha : I seen a) :=
      ih (fun g hg => hfields g (.tail f hg)) n more ha
    -- once an item is missing the others are, and only fields that may be missing are passed over
    have hmore : (if more then Reader.moreItems (n = 0) else pure false).Gives depth Anything := by
      split
      · exact Reader.gives_moreItems _
      · exact gives_pure trivial
    refine hmore.bind fun present _ => ?_
    split
    · refine (hfields f (.head _)).bind fun store hstore => ?_
      refine (hrest (hstore seen a ha)).weaken ?_
      rintro b ⟨read, hb, hseen, hneeded⟩
      refine ⟨read, hb, fun k hk => hseen k (.tail _ hk), ?_⟩
      intro g hg hrequired
      rcases List.mem_cons.mp hg with rfl | hg
      · exact hseen _ (.head _)
      · exact hneeded g hg hrequired
    · split
      · exact Reader.gives_mismatch _
      · rename_i hoptional
        refine (hrest ha).weaken ?_
        rintro b ⟨read, hb, hseen, hneeded⟩
        refine ⟨read, hb, hseen, ?_⟩
        intro g hg hrequired
        rcases List.mem_cons.mp hg with rfl | hg
        · exact absurd hrequired hoptional
        · exact hneeded g hg hrequired

/-- **What holds of a record that was read**, as an object or as an array. -/
theorem record_gives (kind : String) {start : α} (hstart : I [] start)
    (hfields : ∀ k, depth = k + 2 → ∀ f ∈ fields, Stores I (k + 1) f) :
    (record kind start fields).read.Gives depth (IsFilled I fields) := by
  refine gives_peekToken.bind fun x _ => ?_
  split
  · exact gives_failNext _
  · refine gives_enclosed (fun k hk => ?_) fun _ => Reader.gives_endObject
    exact gives_bound.bind fun fuel _ => gives_membersWith (hfields k hk) fuel true hstart
  · refine gives_enclosed (fun k hk => ?_) fun _ => Reader.gives_endList
    refine (gives_positionsWith kind fields.length (hfields k hk) 0 true hstart).weaken ?_
    rintro a ⟨read, ha, -, hneeded⟩
    exact ⟨read, ha, hneeded⟩
  · exact gives_refuseNext _

/-- A field keeps a property if what its decoder gives does. -/
theorem stores_needed {name : String} {d : Decoder β} {store : α → β → α}
    (hd : d.read.Gives depth R)
    (h : ∀ b, R b → ∀ seen a, I seen a → I (name :: seen) (store a b)) :
    Stores I depth (.needed name d store) :=
  map_gives _ (hd.weaken h)

theorem stores_given {name : String} {d : Decoder β} {store : α → β → α}
    (hd : d.read.Gives depth R)
    (h : ∀ b, R b → ∀ seen a, I seen a → I (name :: seen) (store a b)) :
    Stores I depth (.given name d store) :=
  map_gives _ (hd.weaken h)

end Decoder

end ScriptedActions.Json
