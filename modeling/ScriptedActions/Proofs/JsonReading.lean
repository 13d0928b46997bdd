import ScriptedActions.Proofs.JsonGrammar

/-!
# Reading by the grammar

A reader takes characters if it passes exactly these whenever it comes to an end at all
(`Reader.Takes`): a statement of partial correctness, which says nothing of texts that are refused.
The rule for `>>=` puts what two readers take behind each other, so the readers of
`Json/Reader.lean` are dealt with one by one, from the blanks to whole values.

This module goes as far as numbers (`Reader.takes_number`), which are read as what their literals
stand for. `Proofs/JsonValues.lean` goes on with strings, arrays and objects.

**Why the bound matters.** Digits and strings are read with the bound of the cursor as fuel, and a
reader that ran out of fuel among the digits of a number would give a number of fewer digits. So
`Takes` is about cursors with fewer characters left than their bound, and every reader keeps the
bound and leaves no more characters.
-/

set_option autoImplicit false

namespace ScriptedActions.Json

namespace Cursor

theorem rest_advance {c : Cursor} {x : Char} {cs : List Char} (h : c.rest = x :: cs) :
    c.advance.rest = cs ∧ c.advance.bound = c.bound := by
  unfold advance
  split
  · simp_all
  · simp_all
  · simp_all

theorem depth_advance (c : Cursor) : c.advance.depth = c.depth := by
  unfold advance
  split <;> rfl

end Cursor

namespace Reader

variable {α β : Type}

/-- If a reader comes to an end in front of some characters and a tail, it has taken just these
characters, and its result is as described. -/
def Takes (r : Reader α) (cs tail : List Char) (Q : α → Prop) : Prop :=
  ∀ c : Cursor, c.rest = cs ++ tail → c.rest.length < c.bound → ∀ a c', r c = .ok a c' →
    Q a ∧ c'.rest = tail ∧ c'.bound = c.bound

variable {cs ds tail : List Char} {Q Q' : α → Prop} {P : β → Prop}

/-! ## Rules -/

theorem takes_pure {a : α} (h : Q a) : (pure a : Reader α).Takes [] tail Q := by
  intro c hc _ b c' hr
  cases hr
  exact ⟨h, hc, rfl⟩

theorem Takes.bind {r : Reader α} {f : α → Reader β} (hr : r.Takes cs (ds ++ tail) Q)
    (hf : ∀ a, Q a → (f a).Takes ds tail P) : (r >>= f).Takes (cs ++ ds) tail P := by
  intro c hc hbound b c' hb
  change EStateM.bind r f c = _ at hb
  unfold EStateM.bind at hb
  cases hrc : r c with
  | error e c₁ =>
    rw [hrc] at hb
    cases hb
  | ok a c₁ =>
    rw [hrc] at hb
    obtain ⟨ha, hrest, hsame⟩ := hr c (hc.trans (List.append_assoc ..)) hbound a c₁ hrc
    have hbound' : c₁.rest.length < c₁.bound := by
      rw [hc] at hbound
      rw [hrest, hsame]
      simp only [List.length_append] at hbound ⊢
      omega
    obtain ⟨hb, hrest', hsame'⟩ := hf a ha c₁ hrest hbound' b c' hb
    exact ⟨hb, hrest', hsame'.trans hsame⟩

/-- The first reader looks at what comes, and takes nothing. -/
theorem Takes.first {r : Reader α} {f : α → Reader β} (hr : r.Takes [] (cs ++ tail) Q)
    (hf : ∀ a, Q a → (f a).Takes cs tail P) : (r >>= f).Takes cs tail P :=
  Takes.bind hr hf

/-- The first reader takes one character. -/
theorem Takes.cons {r : Reader α} {f : α → Reader β} {x : Char}
    (hr : r.Takes [x] (cs ++ tail) Q) (hf : ∀ a, Q a → (f a).Takes cs tail P) :
    (r >>= f).Takes (x :: cs) tail P :=
  Takes.bind hr hf

theorem Takes.weaken {r : Reader α} (hr : r.Takes cs tail Q) (h : ∀ a, Q a → Q' a) :
    r.Takes cs tail Q' := by
  intro c hc hbound a c' ha
  obtain ⟨hq, hrest⟩ := hr c hc hbound a c' ha
  exact ⟨h a hq, hrest⟩

/-- The second reader takes nothing more. -/
theorem Takes.last {r : Reader α} {f : α → Reader β} (hr : r.Takes cs tail Q)
    (hf : ∀ a, Q a → (f a).Takes [] tail P) : (r >>= f).Takes cs tail P := by
  have h : (r >>= f).Takes (cs ++ []) tail P := Takes.bind hr hf
  rwa [List.append_nil] at h

theorem Takes.map {r : Reader α} {f : α → β} (hr : r.Takes cs tail fun a => P (f a)) :
    (f <$> r).Takes cs tail P :=
  hr.last fun _ ha => takes_pure ha

/-- A reader that fails takes whatever it is asked to. -/
theorem takes_fail (cause : Cause) : (fail cause : Reader α).Takes cs tail Q := nofun

theorem takes_failNext (cause : Cause) : (failNext cause : Reader α).Takes cs tail Q := nofun

/-! ## Single characters -/

theorem takes_peek : peek.Takes [] tail (· = tail.head?) := by
  intro c hc _ a c' hr
  cases hr
  exact ⟨congrArg List.head? hc, hc, rfl⟩

theorem takes_skip (x : Char) : skip.Takes [x] tail fun _ => True := by
  intro c hc _ a c' hr
  cases hr
  exact ⟨trivial, Cursor.rest_advance hc⟩

theorem takes_next (x : Char) : next.Takes [x] tail (· = some x) := by
  intro c hc _ a c' hr
  cases hr
  exact ⟨congrArg List.head? hc, Cursor.rest_advance hc⟩

theorem takes_bound : bound.Takes [] tail (tail.length < ·) := by
  intro c hc hbound a c' hr
  cases hr
  rw [hc] at hbound
  exact ⟨hbound, hc, rfl⟩

/-! ## Blanks -/

/-- A text does not start with a blank. -/
def NoBlank (cs : List Char) : Prop := ∀ x ∈ cs.head?, isBlank x = false

theorem rest_afterBlanks {a : List Char} (ha : Blanks a) (ht : NoBlank tail) (c : Cursor)
    (hc : c.rest = a ++ tail) :
    (afterBlanks c.rest c).rest = tail ∧ (afterBlanks c.rest c).bound = c.bound := by
  rw [hc]
  induction a generalizing c with
  | nil =>
    cases tail with
    | nil => exact ⟨hc, rfl⟩
    | cons x rest =>
      have hx : isBlank x = false := ht x rfl
      simp only [List.nil_append, afterBlanks, hx]
      exact ⟨hc, rfl⟩
  | cons x rest ih =>
    obtain ⟨hrest, hbound⟩ := Cursor.rest_advance hc
    have hx : isBlank x = true := ha x (.head rest)
    simp only [List.cons_append, afterBlanks, hx, if_true]
    rw [← hbound]
    exact ih (fun y hy => ha y (.tail x hy)) c.advance hrest

/-! ## Digits -/

/-- A text does not start with a digit. -/
def NoDigit (cs : List Char) : Prop := ∀ x ∈ cs.head?, isDigit x = false

/-- Digits and nothing else. -/
def Digits (cs : List Char) : Prop := ∀ c ∈ cs, isDigit c

theorem digitValue_le {x : Char} (h : isDigit x) : digitValue x ≤ 9 := by
  simp only [isDigit, Bool.and_eq_true, decide_eq_true_eq] at h
  have hle : x.toNat ≤ 57 := UInt32.le_iff_toNat_le.mp h.2
  unfold digitValue
  omega

theorem Digits.of_cons {x : Char} {cs : List Char} (h : Digits (x :: cs)) : Digits cs :=
  fun c hc => h c (.tail x hc)

theorem le_digitsFrom (n : Nat) (ds : List Char) : n ≤ digitsFrom n ds := by
  induction ds generalizing n with
  | nil => exact Nat.le_refl n
  | cons x rest ih => exact Nat.le_trans (by omega) (ih (10 * n + digitValue x))

/-- The digits of a number are taken as long as the number stays within the limit: all of them
if the whole number does. -/
theorem takes_digitsWithin {limit n : Nat} {ds : List Char} (hds : Digits ds)
    (ht : NoDigit tail) (hn : n ≤ limit) :
    ∃ kept rest, ds = kept ++ rest ∧ digitsFrom n kept ≤ limit ∧
      (rest = [] ↔ digitsFrom n ds ≤ limit) ∧
      ∀ fuel count, ds.length ≤ fuel →
        (digitsWithin limit fuel n count).Takes kept (rest ++ tail)
          (· = (digitsFrom n kept, count + kept.length)) := by
  induction ds generalizing n with
  | nil =>
    refine ⟨[], [], rfl, hn, ⟨fun _ => hn, fun _ => rfl⟩, fun fuel count _ => ?_⟩
    cases fuel with
    | zero => exact takes_pure rfl
    | succ fuel =>
      refine Takes.first takes_peek fun o ho => ?_
      subst ho
      cases tail with
      | nil => exact takes_pure rfl
      | cons x rest =>
        have hx : isDigit x = false := ht x rfl
        simp only [List.nil_append, List.head?_cons, hx, Bool.false_and, Bool.false_eq_true,
          if_false]
        exact takes_pure rfl
  | cons x ds ih =>
    have hx : isDigit x = true := hds x (.head ds)
    -- what does not fit with one digit more does not fit with any that follow
    by_cases hfits : 10 * n + digitValue x ≤ limit
    · obtain ⟨kept, rest, rfl, hkept, hrest, htakes⟩ := ih hds.of_cons hfits
      refine ⟨x :: kept, rest, rfl, hkept, hrest, fun fuel count hfuel => ?_⟩
      obtain ⟨fuel, rfl⟩ := Nat.exists_eq_add_one_of_ne_zero (Nat.ne_zero_of_lt hfuel)
      refine Takes.first takes_peek fun o ho => ?_
      subst ho
      simp only [List.cons_append, List.head?_cons, hx, Bool.true_and, decide_eq_true hfits, if_true]
      refine Takes.cons (takes_skip x) fun _ _ =>
        (htakes fuel (count + 1) (Nat.le_of_succ_le_succ hfuel)).weaken fun a ha => ?_
      rw [ha, List.length_cons]
      simp only [digitsFrom, List.foldl_cons, Prod.mk.injEq, true_and]
      omega
    · refine ⟨[], x :: ds, rfl, hn, ⟨nofun, fun hle => ?_⟩, fun fuel count hfuel => ?_⟩
      · exact absurd (Nat.le_trans (le_digitsFrom _ ds) hle) hfits
      · obtain ⟨fuel, rfl⟩ := Nat.exists_eq_add_one_of_ne_zero (Nat.ne_zero_of_lt hfuel)
        refine Takes.first takes_peek fun o ho => ?_
        subst ho
        simp only [List.nil_append, List.cons_append, List.head?_cons, hx, Bool.true_and,
          decide_eq_false hfits, Bool.false_eq_true, if_false]
        exact takes_pure rfl

theorem takes_skipDigits {fuel : Nat} (count : Nat) {ds : List Char} (hds : Digits ds)
    (ht : NoDigit tail) (hfuel : ds.length ≤ fuel) :
    (skipDigits fuel count).Takes ds tail fun _ => True := by
  induction ds generalizing fuel count with
  | nil =>
    cases fuel with
    | zero => exact takes_pure trivial
    | succ fuel =>
      refine Takes.first takes_peek fun o ho => ?_
      subst ho
      cases tail with
      | nil => exact takes_pure trivial
      | cons x rest =>
        have hx : isDigit x = false := ht x rfl
        simp only [List.nil_append, List.head?_cons, hx, Bool.false_eq_true, if_false]
        exact takes_pure trivial
  | cons x ds ih =>
    obtain ⟨fuel, rfl⟩ : ∃ k, fuel = k + 1 := ⟨fuel - 1, by simp only [List.length_cons] at hfuel; omega⟩
    have hx : isDigit x = true := hds x (.head ds)
    refine Takes.first takes_peek fun o ho => ?_
    subst ho
    simp only [List.cons_append, List.head?_cons, hx, if_true]
    exact Takes.cons (takes_skip x) fun _ _ =>
      ih (count + 1) hds.of_cons (Nat.le_of_succ_le_succ hfuel)

/-! ## Numbers

That a number with a fraction or an exponent is a float does not depend on its digits, so of these
readers only what they take matters. -/

theorem takes_floatOf (positive : Bool) (n : Nat) (e : Int) :
    (floatOf positive n e).Takes [] tail fun _ => True := by
  unfold floatOf
  split
  · exact takes_pure trivial
  · exact takes_fail _

theorem takes_exponentSign {sign : Option Char} {x : Char}
    (hsign : ∀ c ∈ sign, c = '+' ∨ c = '-') (hx : isDigit x) :
    exponentSign.Takes sign.toList (x :: tail) fun _ => True := by
  refine Takes.first takes_peek fun o ho => ?_
  subst ho
  cases sign with
  | some c =>
    rcases hsign c rfl with rfl | rfl <;>
      exact Takes.cons (takes_skip _) fun _ _ => takes_pure trivial
  | none =>
    rw [Option.toList_none, List.nil_append, List.head?_cons]
    split
    · rename_i h
      cases h
      cases hx
    · rename_i h
      cases h
      cases hx
    · exact takes_pure trivial

theorem takes_exponentDigits (positive up : Bool) (n : Nat) (start : Int) {x : Char}
    {ds : List Char} (hx : isDigit x) (hds : Digits ds) (ht : NoDigit tail) :
    (exponentDigits positive n start up).Takes (x :: ds) tail fun _ => True := by
  refine Takes.cons (takes_next x) fun o ho => ?_
  subst ho
  simp only [hx, Bool.not_true, Bool.false_eq_true, if_false]
  refine Takes.first takes_bound fun b hb => ?_
  have hlen : ds.length ≤ b := by
    simp only [List.length_append] at hb
    omega
  have hlimit : digitValue x ≤ maxExponent := Nat.le_trans (digitValue_le hx) (by decide)
  -- an exponent of too many digits is read as a zero or refused, and its other digits are passed
  obtain ⟨kept, rest, rfl, -, -, htakes⟩ := takes_digitsWithin hds ht hlimit
  refine Takes.bind (htakes b 0 hlen) fun a ha => ?_
  subst ha
  refine Takes.first takes_peek fun o ho => ?_
  subst ho
  cases rest with
  | nil =>
    cases tail with
    | nil => exact takes_floatOf _ _ _
    | cons y cs =>
      have hy : isDigit y = false := ht y rfl
      simp only [List.nil_append, List.head?_cons, hy, Bool.false_eq_true, if_false]
      exact takes_floatOf _ _ _
  | cons y rest =>
    have hy : isDigit y = true := hds y (List.mem_append_right kept (.head rest))
    simp only [List.cons_append, List.head?_cons, hy, if_true]
    refine Takes.cons (takes_skip y) fun _ _ => ?_
    split
    · exact takes_fail _
    · refine Takes.first takes_bound fun b hb => ?_
      have hrest : Digits rest := fun c hc => hds c (List.mem_append_right kept (.tail y hc))
      have hlen : rest.length ≤ b := by
        simp only [List.length_append] at hb
        omega
      exact (takes_skipDigits 0 hrest ht hlen).last fun _ _ => takes_pure trivial

theorem takes_exponentPart (positive : Bool) (n : Nat) (start : Int) {e : Exponent}
    (he : e.WellFormed) (ht : NoDigit tail) :
    (exponentPart positive n start).Takes e.text tail fun _ => True := by
  obtain ⟨x, ds, hdigits⟩ := List.exists_cons_of_ne_nil he.nonempty
  have hall : Digits (x :: ds) := hdigits ▸ he.digits
  have hx : isDigit x := hall x (.head ds)
  unfold Exponent.text
  rw [hdigits]
  exact Takes.cons (takes_skip e.mark) fun _ _ =>
    Takes.bind (takes_exponentSign he.sign hx) fun up _ =>
      takes_exponentDigits positive up n start hx hall.of_cons ht

/-- A text does not go on with what could belong to the number in front of it. -/
def EndsNumber (cs : List Char) : Prop :=
  ∀ x ∈ cs.head?, isDigit x = false ∧ x ≠ '.' ∧ x ≠ 'e' ∧ x ≠ 'E'

theorem EndsNumber.noDigit {cs : List Char} (h : EndsNumber cs) : NoDigit cs :=
  fun x hx => (h x hx).1

theorem noDigit_exponent {o : Option Exponent} (ho : ∀ e ∈ o, e.WellFormed)
    (ht : EndsNumber tail) : NoDigit (o.elim [] Exponent.text ++ tail) := by
  cases o with
  | none => exact ht.noDigit
  | some e =>
    intro x hx
    cases hx
    rcases (ho e rfl).mark with h | h <;> (rw [h]; rfl)

theorem takes_floatEnd (positive : Bool) (n : Nat) (start : Int) {o : Option Exponent}
    (ho : ∀ e ∈ o, e.WellFormed) (ht : EndsNumber tail) :
    (floatEnd positive n start).Takes (o.elim [] Exponent.text) tail fun _ => True := by
  refine Takes.first takes_peek fun x hx => ?_
  subst hx
  cases o with
  | some e =>
    have hpart := takes_exponentPart positive n start (ho e rfl) ht.noDigit
    have hhead : (e.text ++ tail).head? = some e.mark := rfl
    rw [Option.elim_some, hhead]
    rcases (ho e rfl).mark with h | h <;> (rw [h]; exact hpart)
  | none =>
    cases tail with
    | nil => exact takes_floatOf _ _ _
    | cons y cs =>
      obtain ⟨-, -, he, hE⟩ := ht y rfl
      simp only [Option.elim_none, List.nil_append, List.head?_cons]
      split
      · exact absurd (Option.some.inj ‹_›) he
      · exact absurd (Option.some.inj ‹_›) hE
      · exact takes_floatOf _ _ _

theorem takes_fraction (positive : Bool) {n : Nat} (start : Int) {ds : List Char}
    {o : Option Exponent} (hn : n ≤ maxSignificand) (hds : Digits ds)
    (ho : ∀ e ∈ o, e.WellFormed) (ht : EndsNumber tail) :
    (fraction positive n start).Takes ('.' :: (ds ++ o.elim [] Exponent.text)) tail
      fun _ => True := by
  refine Takes.cons (takes_skip '.') fun _ _ => Takes.first takes_bound fun b hb => ?_
  have hlen : ds.length ≤ b := by
    simp only [List.length_append] at hb
    omega
  have hnoDigit := noDigit_exponent ho ht
  -- digits behind the point that are too many are passed, and do not count
  obtain ⟨kept, rest, rfl, -, -, htakes⟩ := takes_digitsWithin hds hnoDigit hn
  have hkept := htakes b 0 hlen
  rw [← List.append_assoc] at hkept
  rw [List.append_assoc]
  refine Takes.bind hkept fun a ha => ?_
  subst ha
  refine Takes.first takes_peek fun x hx => ?_
  subst hx
  cases rest with
  | cons y rest =>
    have hy : isDigit y = true := hds y (List.mem_append_right kept (.head rest))
    have hrest : Digits (y :: rest) := fun c hc => hds c (List.mem_append_right kept hc)
    simp only [List.cons_append, List.head?_cons, hy, if_true]
    refine Takes.first takes_bound fun b hb => ?_
    have hlen : (y :: rest).length ≤ b := by
      simp only [List.length_append, List.length_cons] at hb ⊢
      omega
    exact Takes.bind (takes_skipDigits 0 hrest hnoDigit hlen) fun _ _ =>
      takes_floatEnd _ _ _ ho ht
  | nil =>
    simp only [List.nil_append]
    cases hhead : (o.elim [] Exponent.text ++ tail).head? with
    | none =>
      dsimp only
      split
      · exact takes_failNext _
      · exact takes_floatEnd _ _ _ ho ht
    | some x =>
      simp only [hnoDigit x hhead, Bool.false_eq_true, if_false]
      split
      · exact takes_failNext _
      · exact takes_floatEnd _ _ _ ho ht

end Reader

namespace Literal

variable {l : Literal}

theorem not_isWhole_of_fraction {ds : List Char} (h : l.fraction = some ds) (z : Int) :
    ¬ l.IsWhole z := by
  rintro ⟨hz, -⟩
  simp only [integer?, h, reduceCtorEq] at hz

theorem not_isWhole_of_exponent {e : Exponent} (h : l.exponent = some e) (z : Int) :
    ¬ l.IsWhole z := by
  rintro ⟨hz, -⟩
  unfold integer? at hz
  split at hz
  · cases h.symm.trans ‹l.exponent = none›
  · cases hz

/-- Digits that are not all kept are those of a number which no 64-bit integer holds. -/
theorem not_isWhole_of_large (h : Reader.maxSignificand < digitsFrom 0 l.whole) (z : Int) :
    ¬ l.IsWhole z := by
  rintro ⟨hz, hlow, hhigh, -⟩
  unfold Reader.maxSignificand at h
  unfold minInt at hlow
  unfold maxNat at hhigh
  unfold integer? at hz
  split at hz
  · split at hz <;> (cases hz; omega)
  · cases hz

/-- A number without fraction and exponent whose digits are all kept. -/
theorem reads_whole (hfraction : l.fraction = none) (hexponent : l.exponent = none)
    (h : digitsFrom 0 l.whole ≤ Reader.maxSignificand) :
    l.Reads (Reader.numberEnd.whole (!l.negative) (digitsFrom 0 l.whole)) := by
  have hinteger : l.integer? =
      some (if l.negative then -(digitsFrom 0 l.whole : Int) else digitsFrom 0 l.whole) := by
    unfold integer?
    rw [hfraction, hexponent]
  unfold Reader.maxSignificand at h
  unfold Reader.numberEnd.whole
  cases hnegative : l.negative with
  | false =>
    simp only [hnegative, Bool.false_eq_true, if_false] at hinteger
    refine .int ⟨hinteger, ?_, ?_, fun _ => hnegative⟩
    · unfold minInt
      omega
    · unfold maxNat
      omega
  | true =>
    simp only [hnegative, if_true] at hinteger
    simp only [Bool.not_true, Bool.false_eq_true, if_false]
    split
    case isTrue hfloat =>
      refine .float _ ?_
      rintro z ⟨hz, hlow, -, hzero⟩
      cases hinteger.symm.trans hz
      unfold minInt at hlow
      rcases hfloat with hfloat | hfloat
      · rw [hfloat] at hzero
        cases hnegative.symm.trans (hzero rfl)
      · omega
    case isFalse hfits =>
      rw [not_or] at hfits
      refine .int ⟨hinteger, ?_, ?_, fun hzero => ?_⟩
      · unfold minInt
        omega
      · unfold maxNat
        omega
      · omega

end Literal

namespace Reader

variable {α β : Type} {cs ds tail : List Char} {Q Q' : α → Prop} {P : β → Prop}

theorem noDigit_tail {l : Literal} (hl : l.WellFormed) (ht : EndsNumber tail) :
    NoDigit (l.tail ++ tail) := by
  unfold Literal.tail
  cases l.fraction with
  | some ds =>
    intro x hx
    cases hx
    rfl
  | none => exact noDigit_exponent hl.exponent ht

/-- What stands behind all digits of the whole part, if it makes the number a float. -/
theorem takes_afterDigits {l : Literal} (hl : l.WellFormed) (ht : EndsNumber tail) {n : Nat}
    (dropped : Int) (hn : n ≤ maxSignificand) (hreads : ∀ v, l.Reads (.float v)) :
    (do
      match ← peek with
      | some '.' => .float <$> fraction (!l.negative) n dropped
      | _ => .float <$> floatEnd (!l.negative) n dropped : Reader Json).Takes l.tail tail
        l.Reads := by
  refine Takes.first takes_peek fun o ho => ?_
  subst ho
  unfold Literal.tail
  cases hfraction : l.fraction with
  | some ds =>
    obtain ⟨-, hds⟩ := hl.fraction ds hfraction
    exact Takes.map ((takes_fraction _ dropped hn hds hl.exponent ht).weaken fun v _ => hreads v)
  | none =>
    rw [Option.elim_none, List.nil_append]
    have hpoint : (l.exponent.elim [] Exponent.text ++ tail).head? ≠ some '.' := by
      cases hexponent : l.exponent with
      | some e =>
        rintro hhead
        rcases (hl.exponent e hexponent).mark with h | h <;>
          (cases h.symm.trans (Option.some.inj hhead))
      | none => exact fun hhead => (ht '.' hhead).2.1 rfl
    split
    · exact absurd ‹_› hpoint
    · exact Takes.map ((takes_floatEnd _ n dropped hl.exponent ht).weaken fun v _ => hreads v)

/-- A number of nothing but digits ends in front of what is neither a digit nor a point nor a
mark of an exponent. -/
theorem takes_numberEnd_whole {positive : Bool} {x : Char} {n : Nat} {P : Json → Prop}
    (ht : EndsNumber tail) (hwhole : P (numberEnd.whole positive n)) :
    (numberEnd positive x n).Takes [] tail P := by
  refine Takes.first takes_peek fun o ho => ?_
  subst ho
  rw [List.nil_append]
  cases hhead : tail.head? with
  | none => exact takes_pure hwhole
  | some y =>
    obtain ⟨hy, hpoint, he, hE⟩ := ht y hhead
    split
    · exact absurd (Option.some.inj ‹_›) hpoint
    · exact absurd (Option.some.inj ‹_›) he
    · exact absurd (Option.some.inj ‹_›) hE
    · cases ‹some y = some _›
      rw [if_neg (by rw [hy]; exact Bool.false_ne_true)]
      exact takes_pure hwhole
    · cases ‹some y = none›

/-- What follows the digits of a number, if all of them are kept. -/
theorem takes_numberEnd_kept {l : Literal} (hl : l.WellFormed) (ht : EndsNumber tail) {x : Char}
    (hfits : digitsFrom 0 l.whole ≤ maxSignificand) :
    (numberEnd (!l.negative) x (digitsFrom 0 l.whole)).Takes l.tail tail l.Reads := by
  cases hfraction : l.fraction with
  | some ds =>
    obtain ⟨-, hds⟩ := hl.fraction ds hfraction
    have htail : l.tail = '.' :: (ds ++ l.exponent.elim [] Exponent.text) := by
      unfold Literal.tail
      rw [hfraction]
      rfl
    rw [htail]
    refine Takes.first takes_peek fun o ho => ?_
    subst ho
    exact Takes.map ((takes_fraction _ 0 hfits hds hl.exponent ht).weaken fun x _ =>
      .float x (Literal.not_isWhole_of_fraction hfraction))
  | none =>
    have htail : l.tail = l.exponent.elim [] Exponent.text := by
      unfold Literal.tail
      rw [hfraction]
      rfl
    rw [htail]
    cases hexponent : l.exponent with
    | some e =>
      have he := hl.exponent e hexponent
      have hpart := Takes.map ((takes_exponentPart (!l.negative) (digitsFrom 0 l.whole) 0 he
        ht.noDigit).weaken fun x _ =>
          Literal.Reads.float x (Literal.not_isWhole_of_exponent hexponent))
      refine Takes.first takes_peek fun o ho => ?_
      subst ho
      have hhead : (e.text ++ tail).head? = some e.mark := rfl
      rw [Option.elim_some, hhead]
      rcases he.mark with h | h <;> (rw [h]; exact hpart)
    | none => exact takes_numberEnd_whole ht (Literal.reads_whole hfraction hexponent hfits)

/-- What follows the digits of a number that are kept, if there are more of them: the number is too
large for an integer. -/
theorem takes_numberEnd_dropped {l : Literal} (hl : l.WellFormed) (ht : EndsNumber tail)
    {x y : Char} {n : Nat} {rest : List Char} (hrest : Digits (y :: rest)) (hx : x ≠ '0')
    (hn : n ≤ maxSignificand) (hlarge : maxSignificand < digitsFrom 0 l.whole) :
    (numberEnd (!l.negative) x n).Takes (y :: rest ++ l.tail) tail l.Reads := by
  have hy : isDigit y = true := hrest y (.head rest)
  have hreads (v : Float) : l.Reads (.float v) :=
    .float v (Literal.not_isWhole_of_large hlarge)
  refine Takes.first takes_peek fun o ho => ?_
  subst ho
  simp only [List.cons_append, List.head?_cons]
  split
  · cases ‹some y = _›
    cases hy
  · cases ‹some y = _›
    cases hy
  · cases ‹some y = _›
    cases hy
  · cases ‹some y = some _›
    rw [if_pos hy, if_neg (by rwa [beq_iff_eq])]
    refine Takes.first takes_bound fun b hb => ?_
    have hlen : (y :: rest).length ≤ b := by
      simp only [List.length_append, List.length_cons] at hb ⊢
      omega
    refine Takes.bind (takes_skipDigits 0 hrest (noDigit_tail hl ht) hlen) fun dropped _ => ?_
    exact takes_afterDigits hl ht _ hn hreads
  · cases ‹some y = none›

/-- A number whose sign has been read. -/
theorem takes_number {l : Literal} (hl : l.WellFormed) (ht : EndsNumber tail) :
    (number (!l.negative)).Takes (l.whole ++ l.tail) tail l.Reads := by
  obtain ⟨x, ds, hwhole⟩ := List.exists_cons_of_ne_nil hl.nonempty
  have hall : Digits (x :: ds) := hwhole ▸ hl.whole
  have hx : isDigit x = true := hall x (.head ds)
  rw [hwhole]
  refine Takes.cons (takes_next x) fun o ho => ?_
  subst ho
  simp only [hx, Bool.not_true, Bool.false_eq_true, if_false]
  by_cases hzero : x = '0'
  · -- a zero is all of the whole part
    subst hzero
    have hds : ds = [] := by
      have hleading := hl.leading (by rw [hwhole]; rfl)
      rw [hwhole] at hleading
      exact (List.cons.inj hleading).2
    subst hds
    have hvalue : digitsFrom 0 l.whole = 0 := by
      rw [hwhole]
      rfl
    refine Takes.first (takes_pure rfl) fun n hn => ?_
    subst hn
    have hend := takes_numberEnd_kept (x := '0') hl ht (by rw [hvalue]; exact Nat.zero_le _)
    rwa [hvalue] at hend
  · -- of other digits only so many are kept as a significand has room for
    have hlimit : digitValue x ≤ maxSignificand := Nat.le_trans (digitValue_le hx) (by decide)
    have hvalue : digitsFrom 0 l.whole = digitsFrom (digitValue x) ds := by
      rw [hwhole]
      simp only [digitsFrom, List.foldl_cons, Nat.mul_zero, Nat.zero_add]
    obtain ⟨kept, rest, rfl, hkept, hrest, htakes⟩ :=
      takes_digitsWithin hall.of_cons (noDigit_tail hl ht) hlimit
    have hpart : (wholePart x).Takes kept ((rest ++ l.tail) ++ tail)
        (· = digitsFrom (digitValue x) kept) := by
      unfold wholePart
      rw [if_neg (by rwa [beq_iff_eq]), List.append_assoc]
      refine Takes.map (Takes.first takes_bound fun b hb => ?_)
      have hlen : (kept ++ rest).length ≤ b := by
        simp only [List.length_append] at hb ⊢
        omega
      exact (htakes b 0 hlen).weaken fun a ha => congrArg Prod.fst ha
    change Takes _ ((kept ++ rest) ++ l.tail) tail l.Reads
    rw [List.append_assoc]
    refine Takes.bind hpart fun n hn => ?_
    subst hn
    cases rest with
    | nil =>
      rw [List.append_nil] at hvalue
      have hend := takes_numberEnd_kept (x := x) hl ht (hvalue ▸ hkept)
      rwa [hvalue] at hend
    | cons y rest =>
      have hlarge : maxSignificand < digitsFrom 0 l.whole := by
        rw [hvalue]
        exact Nat.lt_of_not_le fun hle => List.cons_ne_nil y rest (hrest.mpr hle)
      exact takes_numberEnd_dropped hl ht
        (fun c hc => hall c (.tail x (List.mem_append_right kept hc))) hzero hkept hlarge

end Reader

end ScriptedActions.Json
