import ScriptedActions.Json.Printer
import ScriptedActions.Proofs.JsonValues

/-!
# Readers that come to an end

`Reader.Accepts` is total correctness: a reader comes to an end on characters, with a given result.
The rules are those of `Reader.Takes`.

Here are single characters, words and whole numbers, and how strings and whole numbers are printed.
-/

set_option autoImplicit false

namespace ScriptedActions.Json

namespace Reader

variable {α β : Type}

/-- In front of a tail, a reader passes some characters and gives a value, if the bound and the
depth of its cursor are as they should be; both are kept. -/
def Accepts (r : Reader α) (cs tail : List Char) (depth : Nat) (a : α) : Prop :=
  ∀ c : Cursor, c.rest = cs ++ tail → 2 * c.rest.length < c.bound → depth < c.depth →
    ∃ c', r c = .ok a c' ∧ c'.rest = tail ∧ c'.bound = c.bound ∧ c'.depth = c.depth

variable {cs ds tail : List Char} {depth : Nat} {a : α} {b : β}

/-! ## Rules -/

theorem accepts_pure : (pure a : Reader α).Accepts [] tail depth a := by
  intro c hc _ _
  exact ⟨c, rfl, hc, rfl, rfl⟩

theorem Accepts.bind {r : Reader α} {f : α → Reader β} (hr : r.Accepts cs (ds ++ tail) depth a)
    (hf : (f a).Accepts ds tail depth b) : (r >>= f).Accepts (cs ++ ds) tail depth b := by
  intro c hc hbound hdepth
  obtain ⟨c₁, hrun, hrest, hsame, hkept⟩ := hr c (hc.trans (List.append_assoc ..)) hbound hdepth
  have hbound₁ : 2 * c₁.rest.length < c₁.bound := by
    rw [hc] at hbound
    rw [hrest, hsame]
    simp only [List.length_append] at hbound ⊢
    omega
  obtain ⟨c₂, hrun₂, hrest₂, hsame₂, hkept₂⟩ := hf c₁ hrest hbound₁ (hkept ▸ hdepth)
  refine ⟨c₂, ?_, hrest₂, hsame₂.trans hsame, hkept₂.trans hkept⟩
  change EStateM.bind r f c = _
  unfold EStateM.bind
  rw [hrun]
  exact hrun₂

/-- The first reader looks at what comes, and takes nothing. -/
theorem Accepts.first {r : Reader α} {f : α → Reader β} (hr : r.Accepts [] (cs ++ tail) depth a)
    (hf : (f a).Accepts cs tail depth b) : (r >>= f).Accepts cs tail depth b :=
  Accepts.bind hr hf

/-- The first reader takes one character. -/
theorem Accepts.cons {r : Reader α} {f : α → Reader β} {x : Char}
    (hr : r.Accepts [x] (cs ++ tail) depth a) (hf : (f a).Accepts cs tail depth b) :
    (r >>= f).Accepts (x :: cs) tail depth b :=
  Accepts.bind hr hf

theorem Accepts.last {r : Reader α} {f : α → Reader β} (hr : r.Accepts cs tail depth a)
    (hf : (f a).Accepts [] tail depth b) : (r >>= f).Accepts cs tail depth b := by
  have h : (r >>= f).Accepts (cs ++ []) tail depth b := Accepts.bind hr hf
  rwa [List.append_nil] at h

theorem Accepts.map {r : Reader α} (f : α → β) (hr : r.Accepts cs tail depth a) :
    (f <$> r).Accepts cs tail depth (f a) :=
  hr.last accepts_pure

/-- The bound is fuel for what is left. -/
theorem Accepts.bounded {f : Nat → Reader β}
    (h : ∀ fuel, 2 * (cs ++ tail).length < fuel → (f fuel).Accepts cs tail depth b) :
    (Reader.bound >>= f).Accepts cs tail depth b := by
  intro c hc hbound hdepth
  exact h c.bound (hc ▸ hbound) c hc hbound hdepth

/-! ## Single characters -/

theorem rest_of_advance {c : Cursor} {x : Char} (hc : c.rest = x :: tail) :
    c.advance.rest = tail ∧ c.advance.bound = c.bound ∧ c.advance.depth = c.depth := by
  obtain ⟨hrest, hbound⟩ := Cursor.rest_advance hc
  exact ⟨hrest, hbound, Cursor.depth_advance c⟩

theorem accepts_peek : peek.Accepts [] tail depth tail.head? := by
  intro c hc _ _
  exact ⟨c, by rw [peek, hc]; rfl, hc, rfl, rfl⟩

theorem accepts_skip (x : Char) : skip.Accepts [x] tail depth () := by
  intro c hc _ _
  exact ⟨c.advance, rfl, rest_of_advance hc⟩

theorem accepts_next (x : Char) : next.Accepts [x] tail depth (some x) := by
  intro c hc _ _
  exact ⟨c.advance, by rw [next, hc]; rfl, rest_of_advance hc⟩

theorem accepts_word (xs : List Char) : (word xs).Accepts xs tail depth () := by
  induction xs with
  | nil => exact accepts_pure
  | cons x rest ih =>
    refine Accepts.cons (accepts_next x) ?_
    dsimp only
    rw [if_pos (beq_self_eq_true x)]
    exact ih

/-- Nothing is passed in front of what is no blank. -/
theorem accepts_peekToken (h : NoBlank tail) : peekToken.Accepts [] tail depth tail.head? := by
  intro c hc _ _
  have hsame : afterBlanks c.rest c = c := by
    rw [hc]
    cases tail with
    | nil => rfl
    | cons x rest =>
      have hx : isBlank x = false := h x rfl
      simp only [List.nil_append, afterBlanks, hx, Bool.false_eq_true, if_false]
  refine ⟨c, ?_, hc, rfl, rfl⟩
  unfold peekToken
  dsimp only
  rw [hsame, hc]
  rfl

end Reader

/-! ## Strings -/

/-- The characters of a string between its quotes. -/
def escaped (cs : List Char) : List Char := cs.flatMap fun c => (escapeChar c).toList

/-- The two digits of a control behind two zeros are its code. -/
theorem hexValue_hexByte : ∀ n < 0x20, (hexByte n).toList.length = 2 ∧
    Reader.hexValue ('0' :: '0' :: (hexByte n).toList) = some n := by
  decide

theorem eq_of_toNat {c : Char} {x : Char} (h : c.toNat = x.toNat) : c = x := by
  rw [← Char.ofNat_toNat c, h, Char.ofNat_toNat]

/-- How a character is printed inside a string: as it is, with an escape of one letter, or, if it is
a control, by its code. -/
theorem toList_escapeChar (c : Char) :
    ((escapeChar c).toList = [c] ∧ c ≠ '"' ∧ c ≠ '\\' ∧ 0x20 ≤ c.toNat) ∨
    (∃ e, (escapeChar c).toList = ['\\', e] ∧ e ≠ 'u' ∧ Reader.simpleEscape e = some c) ∨
    ∃ digits, (escapeChar c).toList = '\\' :: 'u' :: digits ∧ digits.length = 4 ∧
      Reader.hexValue digits = some c.toNat ∧ c.toNat < 0x20 := by
  -- quote and backslash are no controls, so the characters with a short escape come first
  by_cases hspecial : c = '"' ∨ c = '\\' ∨ c = '\n' ∨ c = '\r' ∨ c = '\t' ∨ c = '\x08' ∨ c = '\x0c'
  · right
    left
    rcases hspecial with rfl | rfl | rfl | rfl | rfl | rfl | rfl <;>
      exact ⟨_, rfl, by decide, rfl⟩
  · simp only [not_or] at hspecial
    obtain ⟨hquote, hslash, hn, hr, ht, hb, hf⟩ := hspecial
    have hb' : c.toNat ≠ 8 := fun h => hb (eq_of_toNat h)
    have hf' : c.toNat ≠ 12 := fun h => hf (eq_of_toNat h)
    unfold escapeChar
    simp only [beq_iff_eq, hquote, hslash, hn, hr, ht, hb', hf', if_false]
    by_cases hcontrol : c.toNat < 0x20
    · right
      right
      obtain ⟨hlength, hvalue⟩ := hexValue_hexByte c.toNat hcontrol
      rw [if_pos hcontrol]
      exact ⟨'0' :: '0' :: (hexByte c.toNat).toList, by simp, by simp [hlength], hvalue, hcontrol⟩
    · left
      rw [if_neg hcontrol]
      exact ⟨by simp [Char.toString], hquote, hslash, Nat.not_lt.mp hcontrol⟩

theorem toList_stringText (s : String) :
    (stringText s).toList = '"' :: (escaped s.toList ++ ['"']) := by
  have hfold (cs : List Char) (t : String) :
      (cs.foldl (fun t c => t ++ escapeChar c) t).toList = t.toList ++ escaped cs := by
    induction cs generalizing t with
    | nil => simp [escaped]
    | cons c rest ih => simp [ih, escaped]
  unfold stringText
  rw [String.toList_append, hfold]
  simp

namespace Reader

variable {α β : Type} {cs ds tail : List Char} {depth : Nat} {a : α} {b : β}

theorem accepts_hexEscape {digits : List Char} {n : Nat} (hlength : digits.length = 4)
    (hvalue : hexValue digits = some n) : hexEscape.Accepts digits tail depth n := by
  intro c hc _ _
  have hfour : c.rest.take 4 = digits := by rw [hc, ← hlength, List.take_left]
  have hdrop : c.rest.drop 4 = tail := by rw [hc, ← hlength, List.drop_left]
  refine ⟨{ c with rest := c.rest.drop 4, column := c.column + 4 }, ?_, hdrop, rfl, rfl⟩
  unfold hexEscape
  simp only [hfour, hlength, if_true, hvalue]

/-! ## Numbers -/

theorem accepts_digitsWithin {limit n : Nat} {ds : List Char} (hds : Digits ds)
    (ht : NoDigit tail) (hfits : digitsFrom n ds ≤ limit) {fuel : Nat} (count : Nat)
    (hfuel : ds.length ≤ fuel) :
    (digitsWithin limit fuel n count).Accepts ds tail depth
      (digitsFrom n ds, count + ds.length) := by
  induction ds generalizing fuel n count with
  | nil =>
    cases fuel with
    | zero => exact accepts_pure
    | succ fuel =>
      refine Accepts.first accepts_peek ?_
      cases tail with
      | nil => exact accepts_pure
      | cons x rest =>
        have hx : isDigit x = false := ht x rfl
        simp only [List.nil_append, List.head?_cons, hx, Bool.false_and, Bool.false_eq_true,
          if_false]
        exact accepts_pure
  | cons x ds ih =>
    obtain ⟨fuel, rfl⟩ := Nat.exists_eq_add_one_of_ne_zero (Nat.ne_zero_of_lt hfuel)
    have hx : isDigit x = true := hds x (.head ds)
    -- the number so far is no greater than the whole one, so the limit is never met
    have hnext : 10 * n + digitValue x ≤ limit := Nat.le_trans (le_digitsFrom _ ds) hfits
    have hrest := ih hds.of_cons hfits (count + 1) (Nat.le_of_succ_le_succ hfuel)
    refine Accepts.first accepts_peek ?_
    simp only [List.cons_append, List.head?_cons, hx, Bool.true_and, decide_eq_true hnext, if_true]
    refine Accepts.cons (accepts_skip x) ?_
    rwa [Nat.add_right_comm] at hrest

theorem accepts_skipDigits {ds : List Char} (hds : Digits ds) (ht : NoDigit tail) {fuel : Nat}
    (count : Nat) (hfuel : ds.length ≤ fuel) :
    (skipDigits fuel count).Accepts ds tail depth (count + ds.length) := by
  induction ds generalizing fuel count with
  | nil =>
    cases fuel with
    | zero => exact accepts_pure
    | succ fuel =>
      refine Accepts.first accepts_peek ?_
      cases tail with
      | nil => exact accepts_pure
      | cons x rest =>
        have hx : isDigit x = false := ht x rfl
        simp only [List.nil_append, List.head?_cons, hx, Bool.false_eq_true, if_false]
        exact accepts_pure
  | cons x ds ih =>
    obtain ⟨fuel, rfl⟩ := Nat.exists_eq_add_one_of_ne_zero (Nat.ne_zero_of_lt hfuel)
    have hx : isDigit x = true := hds x (.head ds)
    have hrest := ih hds.of_cons (count + 1) (Nat.le_of_succ_le_succ hfuel)
    refine Accepts.first accepts_peek ?_
    simp only [List.cons_append, List.head?_cons, hx, if_true]
    refine Accepts.cons (accepts_skip x) ?_
    rwa [Nat.add_right_comm] at hrest

end Reader

/-- The decimal digits of a number. -/
def decimal (n : Nat) : List Char := Nat.toDigits 10 n

theorem digits_decimal (n : Nat) : Reader.Digits (decimal n) := by
  intro c hc
  have hdigit := Nat.isDigit_of_mem_toDigits (by decide) (by decide) hc
  unfold Char.isDigit at hdigit
  unfold Reader.isDigit
  exact hdigit

theorem digitsFrom_decimal (n : Nat) : digitsFrom 0 (decimal n) = n :=
  Nat.ofDigitChars_ten_toDigits

/-- Only the number zero starts with a zero. -/
theorem decimal_of_zero {n : Nat} {ds : List Char} (h : decimal n = '0' :: ds) :
    n = 0 ∧ ds = [] := by
  induction n using Nat.strongRecOn generalizing ds with
  | ind n ih =>
    unfold decimal at h ih
    by_cases hsmall : n < 10
    · have hdigit : ∀ m < 10, Nat.digitChar m = '0' → m = 0 := by decide
      rw [Nat.toDigits_of_lt_base hsmall] at h
      obtain ⟨hzero, hnil⟩ := List.cons.inj h
      exact ⟨hdigit n hsmall hzero, hnil.symm⟩
    · rw [Nat.toDigits_of_base_le (by decide) (Nat.not_lt.mp hsmall)] at h
      obtain ⟨x, es, hes⟩ := List.exists_cons_of_ne_nil
        (show Nat.toDigits 10 (n / 10) ≠ [] from Nat.toDigits_ne_nil)
      rw [hes] at h
      obtain ⟨rfl, -⟩ := List.cons.inj h
      obtain ⟨hzero, -⟩ := ih (n / 10) (by omega) hes
      omega

theorem decimal_cases (n : Nat) : ∃ x ds, decimal n = x :: ds ∧ Reader.isDigit x ∧
    Reader.Digits ds ∧ (x = '0' → n = 0 ∧ ds = []) := by
  obtain ⟨x, ds, h⟩ := List.exists_cons_of_ne_nil (show decimal n ≠ [] from Nat.toDigits_ne_nil)
  have hall : Reader.Digits (x :: ds) := h ▸ digits_decimal n
  refine ⟨x, ds, h, hall x (.head ds), hall.of_cons, ?_⟩
  rintro rfl
  exact decimal_of_zero h

theorem toList_render_int (z : Int) :
    (render (.int z)).toList = (if z < 0 then ['-'] else []) ++ decimal z.natAbs := by
  unfold render decimal
  cases z with
  | ofNat n =>
    show (toString n).toList = _
    have hsign : ¬ Int.ofNat n < 0 := Int.not_lt.mpr (Int.natCast_nonneg n)
    rw [Nat.toString_eq_ofList_toDigits, if_neg hsign]
    simp
  | negSucc n =>
    show ("-" ++ toString (n + 1)).toList = _
    rw [Nat.toString_eq_ofList_toDigits, if_pos (Int.negSucc_lt_zero n)]
    simp

namespace Reader

variable {α β : Type} {cs ds tail : List Char} {depth : Nat} {a : α} {b : β}

theorem accepts_number (positive : Bool) {n : Nat} (hn : n ≤ maxSignificand)
    (ht : EndsNumber tail) :
    (number positive).Accepts (decimal n) tail depth (numberEnd.whole positive n) := by
  obtain ⟨x, ds, hdecimal, hx, hds, hzero⟩ := decimal_cases n
  have hvalue : digitsFrom (digitValue x) ds = n := by
    rw [← digitsFrom_decimal n, hdecimal]
    simp only [digitsFrom, List.foldl_cons, Nat.mul_zero, Nat.zero_add]
  rw [hdecimal]
  refine Accepts.cons (accepts_next x) ?_
  simp only [hx, Bool.not_true, Bool.false_eq_true, if_false]
  have hwhole : (wholePart x).Accepts ds tail depth n := by
    unfold wholePart
    -- nothing is read behind a zero; it is a whole number by itself
    by_cases h : x = '0'
    · obtain ⟨rfl, rfl⟩ := hzero h
      rw [if_pos (by rw [h, beq_self_eq_true])]
      exact accepts_pure
    · rw [if_neg (by rwa [beq_iff_eq])]
      have hfits : digitsFrom (digitValue x) ds ≤ maxSignificand := hvalue.symm ▸ hn
      have hdigits : (do digitsWithin maxSignificand (← bound) (digitValue x) 0 :
          Reader (Nat × Nat)).Accepts ds tail depth (n, 0 + ds.length) := by
        refine Accepts.bounded ?_
        intro fuel hfuel
        rw [← hvalue]
        refine accepts_digitsWithin hds ht.noDigit hfits 0 ?_
        simp only [List.length_append] at hfuel
        omega
      exact Accepts.map Prod.fst hdigits
  refine hwhole.last (Accepts.first accepts_peek ?_)
  rw [List.nil_append]
  split
  · exact absurd rfl (ht '.' ‹_›).2.1
  · exact absurd rfl (ht 'e' ‹_›).2.2.1
  · exact absurd rfl (ht 'E' ‹_›).2.2.2
  · rw [if_neg (by rw [(ht _ ‹_›).1]; exact Bool.false_ne_true)]
    exact accepts_pure
  · exact accepts_pure

end Reader

end ScriptedActions.Json
