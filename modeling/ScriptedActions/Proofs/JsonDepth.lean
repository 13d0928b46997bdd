import ScriptedActions.Proofs.JsonPrinting

/-!
# How deep what is read can be

A value that was read is readable (`isReadable_of_parse`): it is nested no deeper than a reader goes,
its integers are 64-bit integers, and its objects are in order.

The depth that is left is a part of the state of a reader, and an array or an object takes one level
of it and gives it back. `Reader.Gives` says this of a reader, together with a property of its
results; it is shown of every reader in the order in which they call each other.
-/

set_option autoImplicit false

namespace ScriptedActions.Json

namespace Reader

variable {α β : Type} {depth : Nat}

/-- With a depth that is left, a reader gives results of a kind only, and leaves the depth as it
was. -/
def Gives (r : Reader α) (depth : Nat) (P : α → Prop) : Prop :=
  ∀ c a c', c.depth = depth → r c = .ok a c' → c'.depth = depth ∧ P a

/-- What is said of a reader of which only the depth matters. -/
abbrev Anything (_ : α) : Prop := True

variable {P Q : α → Prop} {R : β → Prop}

/-! ## Rules -/

theorem gives_pure {a : α} (h : P a) : (pure a : Reader α).Gives depth P := by
  intro c a c' hc hrun
  cases hrun
  exact ⟨hc, h⟩

theorem of_bind_ok {r : Reader α} {f : α → Reader β} {c c' : Cursor} {b : β}
    (h : (r >>= f) c = .ok b c') : ∃ a c₁, r c = .ok a c₁ ∧ f a c₁ = .ok b c' := by
  rw [run_bind] at h
  split at h
  · exact ⟨_, _, ‹_›, h⟩
  · cases h

theorem Gives.bind {r : Reader α} {f : α → Reader β} (hr : r.Gives depth P)
    (hf : ∀ a, P a → (f a).Gives depth R) : (r >>= f).Gives depth R := by
  intro c b c' hc hrun
  obtain ⟨a, c₁, hfirst, hrest⟩ := of_bind_ok hrun
  obtain ⟨hc₁, ha⟩ := hr c a c₁ hc hfirst
  exact hf a ha c₁ b c' hc₁ hrest

theorem Gives.weaken {r : Reader α} (hr : r.Gives depth P) (h : ∀ a, P a → Q a) :
    r.Gives depth Q := by
  intro c a c' hc hrun
  obtain ⟨hc', ha⟩ := hr c a c' hc hrun
  exact ⟨hc', h a ha⟩

theorem Gives.map {r : Reader α} (f : α → β) (hr : r.Gives depth fun a => R (f a)) :
    (f <$> r).Gives depth R :=
  hr.bind fun _ ha => gives_pure ha

theorem gives_fail (cause : Cause) : (fail cause : Reader α).Gives depth P := nofun

theorem gives_failNext (cause : Cause) : (failNext cause : Reader α).Gives depth P := nofun

theorem gives_failPast (cause : Cause) : (failPast cause : Reader α).Gives depth P := nofun

theorem gives_mismatch (reason : String) : (mismatch reason : Reader α).Gives depth P := nofun

/-! ## Single characters -/

theorem depth_afterBlanks (cs : List Char) (c : Cursor) : (afterBlanks cs c).depth = c.depth := by
  induction cs generalizing c with
  | nil => rfl
  | cons x rest ih =>
    unfold afterBlanks
    split
    · rw [ih, Cursor.depth_advance]
    · rfl

theorem gives_peek : peek.Gives depth Anything := by
  intro c a c' hc hrun
  cases hrun
  exact ⟨hc, trivial⟩

theorem gives_skip : skip.Gives depth Anything := by
  intro c a c' hc hrun
  cases hrun
  exact ⟨(Cursor.depth_advance c).trans hc, trivial⟩

theorem gives_next : next.Gives depth Anything := by
  intro c a c' hc hrun
  cases hrun
  exact ⟨(Cursor.depth_advance c).trans hc, trivial⟩

theorem gives_peekToken : peekToken.Gives depth Anything := by
  intro c a c' hc hrun
  cases hrun
  exact ⟨(depth_afterBlanks c.rest c).trans hc, trivial⟩

theorem gives_bound : bound.Gives depth Anything := by
  intro c a c' hc hrun
  cases hrun
  exact ⟨hc, trivial⟩

theorem gives_word (xs : List Char) : (word xs).Gives depth Anything := by
  induction xs with
  | nil => exact gives_pure trivial
  | cons x rest ih =>
    refine gives_next.bind fun y _ => ?_
    split
    · exact gives_fail _
    · split
      · exact ih
      · exact gives_fail _

/-! ## Strings -/

theorem gives_hexEscape : hexEscape.Gives depth Anything := by
  intro c a c' hc hrun
  unfold hexEscape at hrun
  dsimp only at hrun
  split at hrun
  · cases hrun
    exact ⟨hc, trivial⟩
  · split at hrun <;> cases hrun

theorem gives_peekInString : peekInString.Gives depth Anything := by
  refine gives_peek.bind fun x _ => ?_
  split
  · exact gives_pure trivial
  · exact gives_fail _

theorem gives_secondHalf (x : Char) : (secondHalf x).Gives depth Anything := by
  refine gives_peekInString.bind fun y _ => ?_
  split
  · exact gives_skip
  · exact gives_failPast _

theorem gives_unicodeEscape : unicodeEscape.Gives depth Anything := by
  refine gives_hexEscape.bind fun n _ => ?_
  split
  · exact gives_fail _
  · split
    · exact gives_pure trivial
    · refine (gives_secondHalf _).bind fun _ _ => (gives_secondHalf _).bind fun _ _ => ?_
      refine gives_hexEscape.bind fun m _ => ?_
      split
      · exact gives_fail _
      · exact gives_pure trivial

theorem gives_stringRest (fuel : Nat) (text : String) :
    (stringRest fuel text).Gives depth Anything := by
  induction fuel generalizing text with
  | zero => exact gives_fail _
  | succ fuel ih =>
    refine gives_peek.bind fun x _ => ?_
    split
    · exact gives_fail _
    · exact gives_skip.bind fun _ _ => gives_pure trivial
    · refine gives_skip.bind fun _ _ => gives_next.bind fun e _ => ?_
      split
      · exact gives_fail _
      · exact gives_unicodeEscape.bind fun x _ => ih _
      · split
        · exact ih _
        · exact gives_fail _
    · refine gives_skip.bind fun _ _ => ?_
      split
      · exact gives_fail _
      · exact ih _

theorem gives_string : string.Gives depth Anything :=
  gives_bound.bind fun fuel _ => gives_stringRest fuel ""

theorem gives_skipStringRest (fuel : Nat) : (skipStringRest fuel).Gives depth Anything := by
  induction fuel with
  | zero => exact gives_fail _
  | succ fuel ih =>
    refine gives_peek.bind fun x _ => ?_
    split
    · exact gives_fail _
    · exact gives_skip
    · refine gives_skip.bind fun _ _ => gives_next.bind fun e _ => ?_
      split
      · exact gives_fail _
      · exact gives_hexEscape.bind fun _ _ => ih
      · split
        · exact ih
        · exact gives_fail _
    · split
      · exact gives_fail _
      · exact gives_skip.bind fun _ _ => ih

/-! ## Numbers -/

theorem gives_digitsWithin {limit n : Nat} (fuel count : Nat) (h : n ≤ limit) :
    (digitsWithin limit fuel n count).Gives depth (·.1 ≤ limit) := by
  induction fuel generalizing n count with
  | zero => exact gives_pure h
  | succ fuel ih =>
    refine gives_peek.bind fun x _ => ?_
    split
    · split
      · rename_i hfits
        refine gives_skip.bind fun _ _ => ih _ ?_
        simp only [Bool.and_eq_true, decide_eq_true_eq] at hfits
        exact hfits.2
      · exact gives_pure h
    · exact gives_pure h

theorem gives_skipDigits (fuel count : Nat) : (skipDigits fuel count).Gives depth Anything := by
  induction fuel generalizing count with
  | zero => exact gives_pure trivial
  | succ fuel ih =>
    refine gives_peek.bind fun x _ => ?_
    split
    · split
      · exact gives_skip.bind fun _ _ => ih _
      · exact gives_pure trivial
    · exact gives_pure trivial

theorem gives_floatOf (positive : Bool) (n : Nat) (e : Int) :
    (floatOf positive n e).Gives depth Anything := by
  unfold floatOf
  split
  · exact gives_pure trivial
  · exact gives_fail _

theorem gives_exponentSign : exponentSign.Gives depth Anything := by
  refine gives_peek.bind fun x _ => ?_
  split
  · exact gives_skip.bind fun _ _ => gives_pure trivial
  · exact gives_skip.bind fun _ _ => gives_pure trivial
  · exact gives_pure trivial

theorem gives_exponentDigits (positive : Bool) (n : Nat) (start : Int) (up : Bool) :
    (exponentDigits positive n start up).Gives depth Anything := by
  refine gives_next.bind fun y _ => ?_
  cases y with
  | none => exact gives_fail _
  | some x =>
    dsimp only
    split
    · exact gives_fail _
    · rename_i hdigit
      have hx : isDigit x := by simpa using hdigit
      have hle : digitValue x ≤ maxExponent :=
        Nat.le_trans (digitValue_le hx) (by decide)
      refine gives_bound.bind fun fuel _ => (gives_digitsWithin fuel 0 hle).bind fun e _ => ?_
      refine gives_peek.bind fun y _ => ?_
      split
      · split
        · refine gives_skip.bind fun _ _ => ?_
          split
          · exact gives_fail _
          · refine gives_bound.bind fun fuel _ => (gives_skipDigits fuel 0).bind fun _ _ => ?_
            exact gives_pure trivial
        · exact gives_floatOf _ _ _
      · exact gives_floatOf _ _ _

theorem gives_exponentPart (positive : Bool) (n : Nat) (start : Int) :
    (exponentPart positive n start).Gives depth Anything :=
  gives_skip.bind fun _ _ => gives_exponentSign.bind fun up _ =>
    gives_exponentDigits positive n start up

theorem gives_floatEnd (positive : Bool) (n : Nat) (e : Int) :
    (floatEnd positive n e).Gives depth Anything := by
  refine gives_peek.bind fun x _ => ?_
  split
  · exact gives_exponentPart _ _ _
  · exact gives_exponentPart _ _ _
  · exact gives_floatOf _ _ _

theorem gives_fraction (positive : Bool) {n : Nat} (e : Int) (h : n ≤ maxSignificand) :
    (fraction positive n e).Gives depth Anything := by
  refine gives_skip.bind fun _ _ => gives_bound.bind fun fuel _ => ?_
  refine (gives_digitsWithin fuel 0 h).bind fun m _ => gives_peek.bind fun x _ => ?_
  split
  · split
    · refine gives_bound.bind fun fuel _ => (gives_skipDigits fuel 0).bind fun _ _ => ?_
      exact gives_floatEnd _ _ _
    · split
      · exact gives_failNext _
      · exact gives_floatEnd _ _ _
  · split
    · exact gives_failNext _
    · exact gives_floatEnd _ _ _

theorem gives_wholePart {x : Char} (hx : isDigit x) :
    (wholePart x).Gives depth (· ≤ maxSignificand) := by
  unfold wholePart
  split
  · exact gives_pure (Nat.zero_le _)
  · have hle : digitValue x ≤ maxSignificand := Nat.le_trans (digitValue_le hx) (by decide)
    refine Gives.map Prod.fst (gives_bound.bind fun fuel _ => ?_)
    exact gives_digitsWithin fuel 0 hle

/-- A whole number that was kept digit by digit is a 64-bit integer, or a float. -/
theorem isReadable_whole (positive : Bool) {n : Nat} (h : n ≤ maxSignificand) (d : Nat) :
    IsReadable d (numberEnd.whole positive n) := by
  unfold maxSignificand at h
  unfold numberEnd.whole
  split
  · refine .int ⟨?_, ?_⟩
    · unfold minInt
      omega
    · unfold maxNat
      omega
  · split
    · exact .float d _
    · refine .int ⟨?_, ?_⟩
      · unfold minInt
        omega
      · unfold maxNat
        omega

theorem gives_numberEnd (positive : Bool) (x : Char) {n : Nat} (h : n ≤ maxSignificand) (d : Nat) :
    (numberEnd positive x n).Gives depth (IsReadable d) := by
  have hfloat {r : Reader Float} (hr : r.Gives depth Anything) :
      (Json.float <$> r).Gives depth (IsReadable d) :=
    Gives.map Json.float (hr.weaken fun f _ => .float d f)
  refine gives_peek.bind fun y _ => ?_
  split
  · exact hfloat (gives_fraction _ _ h)
  · exact hfloat (gives_exponentPart _ _ _)
  · exact hfloat (gives_exponentPart _ _ _)
  · split
    · split
      · exact gives_failNext _
      · refine gives_bound.bind fun fuel _ => (gives_skipDigits fuel 0).bind fun dropped _ => ?_
        refine gives_peek.bind fun z _ => ?_
        split
        · exact hfloat (gives_fraction _ _ h)
        · exact hfloat (gives_floatEnd _ _ _)
    · exact gives_pure (isReadable_whole positive h d)
  · exact gives_pure (isReadable_whole positive h d)

theorem gives_number (positive : Bool) (d : Nat) :
    (number positive).Gives depth (IsReadable d) := by
  refine gives_next.bind fun y _ => ?_
  cases y with
  | none => exact gives_fail _
  | some x =>
    dsimp only
    split
    · exact gives_fail _
    · rename_i hdigit
      have hx : isDigit x := by simpa using hdigit
      exact (gives_wholePart hx).bind fun n hn => gives_numberEnd positive x hn d

/-! ## Arrays and objects -/

theorem gives_moreItems (first : Bool) : (moreItems first).Gives depth Anything := by
  refine gives_peekToken.bind fun x _ => ?_
  split
  · exact gives_failNext _
  · exact gives_pure trivial
  · split
    · exact gives_pure trivial
    · split
      · refine gives_skip.bind fun _ _ => gives_peekToken.bind fun y _ => ?_
        split
        · exact gives_failNext _
        · exact gives_pure trivial
        · exact gives_failNext _
      · exact gives_failNext _

theorem gives_moreMembers (first : Bool) : (moreMembers first).Gives depth Anything := by
  refine gives_peekToken.bind fun x _ => ?_
  split
  · exact gives_failNext _
  · exact gives_pure trivial
  · split
    · split
      · exact gives_pure trivial
      · exact gives_failNext _
    · split
      · refine gives_skip.bind fun _ _ => gives_peekToken.bind fun y _ => ?_
        split
        · exact gives_pure trivial
        · exact gives_failNext _
        · exact gives_failNext _
        · exact gives_failNext _
      · exact gives_failNext _

theorem gives_colon : colon.Gives depth Anything := by
  refine gives_peekToken.bind fun x _ => ?_
  split
  · exact gives_skip
  · exact gives_failNext _
  · exact gives_failNext _

theorem gives_endList : endList.Gives depth Anything := by
  refine gives_peekToken.bind fun x _ => ?_
  split
  · exact gives_skip
  · refine gives_skip.bind fun _ _ => gives_peekToken.bind fun y _ => ?_
    split
    · exact gives_failNext _
    · exact gives_failNext _
  · exact gives_failNext _
  · exact gives_failNext _

theorem gives_endObject : endObject.Gives depth Anything := by
  refine gives_peekToken.bind fun x _ => ?_
  split
  · exact gives_skip
  · exact gives_failNext _
  · exact gives_failNext _
  · exact gives_failNext _

theorem gives_memberName : memberName.Gives depth Anything :=
  gives_skip.bind fun _ _ => gives_string

/-- What is inside an array or an object has one level less. -/
theorem Gives.enclosed {inside : Reader α} {close : Reader Unit} {f : α → β}
    (hinside : ∀ d, depth = d + 2 → inside.Gives (d + 1) fun a => R (f a))
    (hclose : ∀ d, close.Gives d Anything) :
    (do enter; let a ← inside; close; leave; pure (f a) : Reader β).Gives depth R := by
  intro c b c' hc hrun
  obtain ⟨⟨⟩, c₁, henter, hrun⟩ := of_bind_ok hrun
  obtain ⟨a, c₂, hread, hrun⟩ := of_bind_ok hrun
  obtain ⟨⟨⟩, c₃, hend, hrun⟩ := of_bind_ok hrun
  unfold enter at henter
  -- the last level is no level for an array or an object
  by_cases hnone : c.depth ≤ 1
  · rw [if_pos hnone] at henter
    cases henter
  · rw [if_neg hnone] at henter
    obtain ⟨d, hd⟩ : ∃ d, depth = d + 2 := ⟨depth - 2, by omega⟩
    have hc₁ : c₁.depth = d + 1 := by
      cases henter
      dsimp only
      omega
    obtain ⟨hc₂, ha⟩ := hinside d hd c₁ a c₂ hc₁ hread
    obtain ⟨hc₃, -⟩ := hclose (d + 1) c₂ () c₃ hc₂ hend
    cases hrun
    refine ⟨?_, ha⟩
    dsimp only
    omega

/-! ## Values -/

/-- The items of an array that are readable one level below. -/
def ItemsReadable (depth : Nat) (items : List Json) : Prop := ∀ v ∈ items, IsReadable depth v

/-- The members of an object that are readable one level below. -/
def MembersReadable (depth : Nat) (members : Table Json) : Prop :=
  members.Sorted ∧ ∀ e ∈ members, IsReadable depth e.2

theorem MembersReadable.insert {d : Nat} {members : Table Json} (h : MembersReadable d members)
    (k : String) {v : Json} (hv : IsReadable d v) : MembersReadable d (members.insert k v) := by
  obtain ⟨hsorted, hall⟩ := h
  refine ⟨hsorted.insert k v, ?_⟩
  rintro ⟨j, w⟩ hw
  rw [(hsorted.insert k v).mem_iff, Table.get?_insert] at hw
  split at hw
  · cases hw
    exact hv
  · exact hall (j, w) ((hsorted.mem_iff j w).mpr hw)

/-- **Every value that is read is readable.** A reader that has `d + 1` levels left reads values that
are nested at most `d` deep. -/
theorem gives_all (fuel : Nat) :
    (∀ d, (valueWith fuel).Gives (d + 1) (IsReadable d)) ∧
    (∀ d first done, ItemsReadable d done →
      (itemsWith fuel first done).Gives (d + 1) (ItemsReadable d)) ∧
    (∀ d first done, MembersReadable d done →
      (membersWith fuel first done).Gives (d + 1) (MembersReadable d)) := by
  -- the three call each other, always with less fuel
  induction fuel with
  | zero =>
    exact ⟨fun _ => gives_fail _, fun _ _ _ _ => gives_fail _, fun _ _ _ _ => gives_fail _⟩
  | succ fuel ih =>
    obtain ⟨hvalue, hitems, hmembers⟩ := ih
    refine ⟨?_, ?_, ?_⟩
    · intro d
      refine gives_peekToken.bind fun x _ => ?_
      split
      · exact gives_failNext _
      · exact gives_skip.bind fun _ _ => (gives_word _).bind fun _ _ => gives_pure (.null d)
      · exact gives_skip.bind fun _ _ => (gives_word _).bind fun _ _ => gives_pure (.bool d _)
      · exact gives_skip.bind fun _ _ => (gives_word _).bind fun _ _ => gives_pure (.bool d _)
      · exact gives_skip.bind fun _ _ => gives_number _ d
      · exact gives_skip.bind fun _ _ => Gives.map _ (gives_string.weaken fun s _ => .string d s)
      · refine Gives.enclosed (fun k hk => ?_) fun _ => gives_endList
        obtain rfl : d = k + 1 := Nat.succ.inj hk
        exact (hitems k true [] nofun).weaken fun items h => .array h
      · refine Gives.enclosed (fun k hk => ?_) fun _ => gives_endObject
        obtain rfl : d = k + 1 := Nat.succ.inj hk
        have hnone : MembersReadable k [] := ⟨Table.sorted_nil, nofun⟩
        exact (hmembers k true [] hnone).weaken fun members h => .object h.1 h.2
      · split
        · exact gives_number _ d
        · exact gives_failNext _
    · intro d first done hdone
      refine (gives_moreItems first).bind fun more _ => ?_
      split
      · refine (hvalue d).bind fun v hv => hitems d false (v :: done) ?_
        intro w hw
        rcases List.mem_cons.mp hw with rfl | hw
        · exact hv
        · exact hdone w hw
      · exact gives_pure fun v hv => hdone v (List.mem_reverse.mp hv)
    · intro d first done hdone
      refine (gives_moreMembers first).bind fun more _ => ?_
      split
      · refine gives_memberName.bind fun name _ => gives_colon.bind fun _ _ => ?_
        exact (hvalue d).bind fun v hv => hmembers d false _ (hdone.insert name hv)
      · exact gives_pure hdone

theorem gives_value (d : Nat) : value.Gives (d + 1) (IsReadable d) :=
  gives_bound.bind fun fuel _ => (gives_all fuel).1 d

/-! ## Values that are passed over -/

theorem gives_skipExponent : skipNumber.exponent.Gives depth Anything := by
  refine gives_skip.bind fun _ _ => gives_peek.bind fun x _ => ?_
  split
  -- with a sign or without one, the same digits follow
  all_goals
    first
    | refine gives_skip.bind fun _ _ => gives_next.bind fun y _ => ?_
    | refine gives_next.bind fun y _ => ?_
    split
    · split
      · refine gives_bound.bind fun fuel _ => (gives_skipDigits fuel 0).bind fun _ _ => ?_
        exact gives_pure trivial
      · exact gives_fail _
    · exact gives_fail _

theorem gives_skipTail : skipNumber.tail.Gives depth Anything := by
  refine gives_peek.bind fun x _ => ?_
  split
  · refine gives_skip.bind fun _ _ => gives_bound.bind fun fuel _ => ?_
    refine (gives_skipDigits fuel 0).bind fun count _ => ?_
    split
    · refine (gives_failNext _).bind (P := Anything) fun _ _ => gives_peek.bind fun y _ => ?_
      split
      · exact gives_skipExponent
      · exact gives_skipExponent
      · exact gives_pure trivial
    · refine gives_peek.bind fun y _ => ?_
      split
      · exact gives_skipExponent
      · exact gives_skipExponent
      · exact gives_pure trivial
  · exact gives_skipExponent
  · exact gives_skipExponent
  · exact gives_pure trivial

theorem gives_skipNumber : skipNumber.Gives depth Anything := by
  refine gives_next.bind fun x _ => ?_
  split
  · refine gives_peek.bind fun y _ => ?_
    split
    · split
      · exact gives_failNext _
      · exact gives_skipTail
    · exact gives_skipTail
  · split
    · refine gives_bound.bind fun fuel _ => (gives_skipDigits fuel 0).bind fun _ _ => ?_
      exact gives_skipTail
    · exact gives_fail _
  · exact gives_fail _

theorem gives_skipAll (fuel : Nat) :
    (skipValueWith fuel).Gives depth Anything ∧ (skipItemsWith fuel).Gives depth Anything ∧
      (skipMembersWith fuel).Gives depth Anything := by
  induction fuel with
  | zero => exact ⟨gives_fail _, gives_fail _, gives_fail _⟩
  | succ fuel ih =>
    obtain ⟨hvalue, hitems, hmembers⟩ := ih
    refine ⟨?_, ?_, ?_⟩
    · refine gives_peekToken.bind fun x _ => ?_
      split
      · exact gives_failNext _
      · exact gives_skip.bind fun _ _ => gives_word _
      · exact gives_skip.bind fun _ _ => gives_word _
      · exact gives_skip.bind fun _ _ => gives_word _
      · exact gives_skip.bind fun _ _ => gives_skipNumber
      · exact gives_skip.bind fun _ _ => gives_bound.bind fun fuel _ => gives_skipStringRest fuel
      · refine gives_skip.bind fun _ _ => gives_peekToken.bind fun y _ => ?_
        split
        · exact gives_skip
        · exact hitems
        · exact gives_failNext _
      · refine gives_skip.bind fun _ _ => gives_peekToken.bind fun y _ => ?_
        split
        · exact gives_skip
        · exact hmembers
        · exact gives_failNext _
      · split
        · exact gives_skipNumber
        · exact gives_failNext _
    · refine hvalue.bind fun _ _ => gives_peekToken.bind fun x _ => ?_
      split
      · exact gives_skip.bind fun _ _ => hitems
      · exact gives_skip
      · exact gives_failNext _
      · exact gives_failNext _
    · refine gives_peekToken.bind fun x _ => ?_
      split
      · refine gives_skip.bind fun _ _ => gives_bound.bind fun fuel _ => ?_
        refine (gives_skipStringRest fuel).bind fun _ _ => gives_colon.bind fun _ _ => ?_
        refine hvalue.bind fun _ _ => gives_peekToken.bind fun x _ => ?_
        split
        · exact gives_skip.bind fun _ _ => hmembers
        · exact gives_skip
        · exact gives_failNext _
        · exact gives_failNext _
      · exact (gives_failNext _).bind (P := fun _ => False) fun _ h => h.elim
      · exact (gives_failNext _).bind (P := fun _ => False) fun _ h => h.elim

theorem gives_skipValue : skipValue.Gives depth Anything :=
  gives_bound.bind fun fuel _ => (gives_skipAll fuel).1

theorem gives_rawValue : rawValue.Gives depth Anything := by
  intro c a c' hc hrun
  unfold rawValue at hrun
  dsimp only at hrun
  split at hrun
  · rename_i hskip
    cases hrun
    exact gives_skipValue _ () _ ((depth_afterBlanks c.rest c).trans hc) hskip
  · cases hrun

/-! ## Whole texts -/

theorem Gives.whole {r : Reader α} (hr : r.Gives depth P) : (whole r).Gives depth P := by
  refine hr.bind fun a ha => gives_peekToken.bind fun x _ => ?_
  split
  · exact gives_failNext _
  · exact gives_pure ha

theorem of_run_ok {r : Reader α} {text : String} {a : α} (hr : r.Gives depthLimit P)
    (h : run r text = .ok a) : P a := by
  unfold run at h
  split at h
  · cases h
    exact (hr.whole _ _ _ rfl ‹_›).2
  · cases h

end Reader

/-- **What was read is readable.** -/
theorem isReadable_of_parse {text : String} {v : Json} (h : parse text = .ok v) :
    IsReadable 127 v :=
  Reader.of_run_ok (Reader.gives_value 127) h

end ScriptedActions.Json
