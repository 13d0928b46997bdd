import ScriptedActions.Proofs.JsonOutcomes

/-!
# Numbers alone and in front of a tail

What a number is read as does not depend on what stands behind it: `Literal.value?` is what its
characters are read as when nothing does, and `Reader.yields_number` says that this is what comes of
them in front of any tail at which a value may end.

A float depends on each of its digits, and on how many of them are kept, so the value is not
described again. Instead the reader is run twice, on texts that have the number in common
(`Reader.Alike`): the two runs go step by step, and they can only come apart where the number ends,
at a character that is no part of any number.

A number that is passed over is always passed (`Reader.accepts_skipLiteral`), however large it is.
-/

set_option autoImplicit false

namespace ScriptedActions.Json

/-- The value of a number, if it has one: a number that is too large has none. -/
def Literal.value? (l : Literal) : Option Json :=
  match Reader.number (!l.negative) (.start (String.ofList (l.whole ++ l.tail))) with
  | .ok v _ => some v
  | .error _ _ => none

namespace Reader

variable {α β : Type} {cs ds tail tail' : List Char} {depth : Nat}

/-! ## Two runs -/

/-- Two readers do the same on what two texts have in common, in front of different tails. Either
both stop, or both give the same value and pass the same characters. -/
def Alike (tail tail' cs : List Char) (r r' : Reader α) : Prop :=
  ∀ c c' : Cursor, c.rest = cs ++ tail → c'.rest = cs ++ tail' →
    c.rest.length < c.bound → c'.rest.length < c'.bound →
    (∃ e d e' d', r c = .error e d ∧ r' c' = .error e' d') ∨
    ∃ a d d' ds, r c = .ok a d ∧ r' c' = .ok a d' ∧ ds.length ≤ cs.length ∧
      (d.rest = ds ++ tail ∧ d.bound = c.bound) ∧ d'.rest = ds ++ tail' ∧ d'.bound = c'.bound

theorem alike_pure (a : α) : Alike tail tail' cs (pure a) (pure a) := by
  intro c c' hc hc' _ _
  exact .inr ⟨a, c, c', cs, rfl, rfl, Nat.le_refl _, ⟨hc, rfl⟩, hc', rfl⟩

theorem Fails.alike {r r' : Reader α} (hr : r.Fails) (hr' : r'.Fails) :
    Alike tail tail' cs r r' := by
  intro c c' _ _ _ _
  obtain ⟨e, d, h⟩ := hr c
  obtain ⟨e', d', h'⟩ := hr' c'
  exact .inl ⟨e, d, e', d', h, h'⟩

theorem Alike.bind {r r' : Reader α} {f f' : α → Reader β} (hr : Alike tail tail' cs r r')
    (hf : ∀ a ds, ds.length ≤ cs.length → Alike tail tail' ds (f a) (f' a)) :
    Alike tail tail' cs (r >>= f) (r' >>= f') := by
  intro c c' hc hc' hbound hbound'
  rw [run_bind, run_bind]
  rcases hr c c' hc hc' hbound hbound' with ⟨e, d, e', d', h, h'⟩ |
    ⟨a, d, d', ds, h, h', hless, ⟨hd, hsame⟩, hd', hsame'⟩
  · rw [h, h']
    exact .inl ⟨e, d, e', d', rfl, rfl⟩
  · rw [h, h']
    rw [hc, List.length_append] at hbound
    rw [hc', List.length_append] at hbound'
    have hfits : d.rest.length < d.bound := by
      rw [hd, hsame, List.length_append]
      omega
    have hfits' : d'.rest.length < d'.bound := by
      rw [hd', hsame', List.length_append]
      omega
    rcases hf a ds hless d d' hd hd' hfits hfits' with hstop |
      ⟨b, o, o', es, hb, hb', hless', ⟨ho, hkept⟩, ho', hkept'⟩
    · exact .inl hstop
    · exact .inr ⟨b, o, o', es, hb, hb', Nat.le_trans hless' hless, ⟨ho, hkept.trans hsame⟩, ho',
        hkept'.trans hsame'⟩

theorem Alike.map {r r' : Reader α} (f : α → β) (hr : Alike tail tail' cs r r') :
    Alike tail tail' cs (f <$> r) (f <$> r') :=
  hr.bind fun a _ _ => alike_pure (f a)

/-- The character that comes next is the same in both texts, if it is one that they have in
common. -/
theorem Alike.take {f f' : Option Char → Reader β} {x : Char}
    (h : Alike tail tail' cs (f (some x)) (f' (some x))) :
    Alike tail tail' (x :: cs) (next >>= f) (next >>= f') := by
  intro c c' hc hc' hbound hbound'
  obtain ⟨hrest, hsame⟩ : c.advance.rest = cs ++ tail ∧ _ := Cursor.rest_advance hc
  obtain ⟨hrest', hsame'⟩ : c'.advance.rest = cs ++ tail' ∧ _ := Cursor.rest_advance hc'
  have hnext : (next >>= f) c = f (some x) c.advance := by
    rw [run_bind, next, hc]
    rfl
  have hnext' : (next >>= f') c' = f' (some x) c'.advance := by
    rw [run_bind, next, hc']
    rfl
  rw [hc, List.cons_append, List.length_cons] at hbound
  rw [hc', List.cons_append, List.length_cons] at hbound'
  rw [hnext, hnext', ← hsame, ← hsame']
  rcases h c.advance c'.advance hrest hrest' (by rw [hrest, hsame]; omega)
    (by rw [hrest', hsame']; omega) with hstop | ⟨a, d, d', ds, hd, hd', hless, hends⟩
  · exact .inl hstop
  · exact .inr ⟨a, d, d', ds, hd, hd', Nat.le_succ_of_le hless, hends⟩

theorem Alike.pass {f f' : Unit → Reader β} {x : Char}
    (h : Alike tail tail' cs (f ()) (f' ())) :
    Alike tail tail' (x :: cs) (skip >>= f) (skip >>= f') := by
  have htake : Alike tail tail' (x :: cs) (next >>= fun _ => f ()) (next >>= fun _ => f' ()) :=
    Alike.take h
  exact htake

/-- The bounds of the two texts may differ; each is fuel enough. -/
theorem Alike.bounded {f f' : Nat → Reader β}
    (h : ∀ n n', cs.length < n → cs.length < n' → Alike tail tail' cs (f n) (f' n')) :
    Alike tail tail' cs (bound >>= f) (bound >>= f') := by
  intro c c' hc hc' hbound hbound'
  have hless : cs.length < c.bound := by
    rw [hc, List.length_append] at hbound
    omega
  have hless' : cs.length < c'.bound := by
    rw [hc', List.length_append] at hbound'
    omega
  exact h c.bound c'.bound hless hless' c c' hc hc' hbound hbound'

/-- A character is no part of a number, nor is the end of the text. -/
def NoPart (o : Option Char) : Prop :=
  ∀ x ∈ o, isDigit x = false ∧ x ≠ '.' ∧ x ≠ 'e' ∧ x ≠ 'E' ∧ x ≠ '+' ∧ x ≠ '-'

theorem EndsValue.noPart (h : EndsValue tail) : NoPart tail.head? := by
  intro x hx
  obtain ⟨hdigit, hpoint, he, hE⟩ := h.endsNumber x hx
  refine ⟨hdigit, hpoint, he, hE, ?_, ?_⟩ <;>
    · rintro rfl
      rcases h _ hx with hblank | hcomma | hbracket | hbrace <;> contradiction

theorem NoPart.isDigit {x : Char} (h : NoPart (some x)) : Reader.isDigit x = false := (h x rfl).1

/-- Behind the number there is nothing to take. -/
theorem Alike.takePast (ht : EndsValue tail) (ht' : EndsValue tail') {f f' : Option Char → Reader β}
    (hf : ∀ o, NoPart o → (f o).Fails) (hf' : ∀ o, NoPart o → (f' o).Fails) :
    Alike tail tail' [] (next >>= f) (next >>= f') := by
  intro c c' hc hc' _ _
  have hhead : c.rest.head? = tail.head? := congrArg List.head? hc
  have hhead' : c'.rest.head? = tail'.head? := congrArg List.head? hc'
  obtain ⟨e, d, h⟩ := hf _ ht.noPart c.advance
  obtain ⟨e', d', h'⟩ := hf' _ ht'.noPart c'.advance
  rw [← hhead] at h
  rw [← hhead'] at h'
  exact .inl ⟨e, d, e', d', h, h'⟩

/-- Looking at what comes next: the runs come apart only behind the number. -/
theorem Alike.look (ht : EndsValue tail) (ht' : EndsValue tail') {f f' : Option Char → Reader β}
    (hnext : ∀ x ds, cs = x :: ds → Alike tail tail' cs (f (some x)) (f' (some x)))
    (hend : cs = [] → ∀ o o', NoPart o → NoPart o' → Alike tail tail' [] (f o) (f' o')) :
    Alike tail tail' cs (peek >>= f) (peek >>= f') := by
  intro c c' hc hc' hbound hbound'
  have hpeek (g : Option Char → Reader β) (k : Cursor) : (peek >>= g) k = g k.rest.head? k := rfl
  rw [hpeek, hpeek]
  cases cs with
  | nil =>
    have hhead : c.rest.head? = tail.head? := congrArg List.head? hc
    have hhead' : c'.rest.head? = tail'.head? := congrArg List.head? hc'
    rw [hhead, hhead']
    exact hend rfl _ _ ht.noPart ht'.noPart c c' hc hc' hbound hbound'
  | cons x ds =>
    have hhead : c.rest.head? = some x := congrArg List.head? hc
    have hhead' : c'.rest.head? = some x := congrArg List.head? hc'
    rw [hhead, hhead']
    exact hnext x ds rfl c c' hc hc' hbound hbound'

/-- What comes behind the number makes no difference. -/
theorem Alike.lookPast (ht : EndsValue tail) (ht' : EndsValue tail') {r r' : Reader β}
    {f f' : Option Char → Reader β}
    (hnext : ∀ x ds, cs = x :: ds → Alike tail tail' cs (f (some x)) (f' (some x)))
    (hend : Alike tail tail' [] r r') (hf : ∀ o, NoPart o → f o = r)
    (hf' : ∀ o, NoPart o → f' o = r') : Alike tail tail' cs (peek >>= f) (peek >>= f') := by
  refine Alike.look ht ht' hnext fun _ o o' ho ho' => ?_
  rw [hf o ho, hf' o' ho']
  exact hend

/-! ## Numbers -/

section number

variable (ht : EndsValue tail) (ht' : EndsValue tail')
include ht ht'

theorem alike_digitsWithin (limit n count : Nat) {fuel fuel' : Nat} (hfuel : cs.length < fuel)
    (hfuel' : cs.length < fuel') :
    Alike tail tail' cs (digitsWithin limit fuel n count) (digitsWithin limit fuel' n count) := by
  induction cs generalizing fuel fuel' n count with
  | nil =>
    obtain ⟨fuel, rfl⟩ := Nat.exists_eq_add_one_of_ne_zero (Nat.ne_zero_of_lt hfuel)
    obtain ⟨fuel', rfl⟩ := Nat.exists_eq_add_one_of_ne_zero (Nat.ne_zero_of_lt hfuel')
    refine Alike.lookPast ht ht' nofun (alike_pure (n, count)) ?_ ?_
    all_goals
      rintro (_ | x) ho
      · rfl
      · simp only [ho.isDigit, Bool.false_and, Bool.false_eq_true, if_false]
  | cons x ds ih =>
    obtain ⟨fuel, rfl⟩ := Nat.exists_eq_add_one_of_ne_zero (Nat.ne_zero_of_lt hfuel)
    obtain ⟨fuel', rfl⟩ := Nat.exists_eq_add_one_of_ne_zero (Nat.ne_zero_of_lt hfuel')
    refine Alike.look ht ht' ?_ nofun
    rintro y es ⟨⟩
    dsimp only
    split
    · exact Alike.pass (ih _ _ (Nat.lt_of_succ_lt_succ hfuel) (Nat.lt_of_succ_lt_succ hfuel'))
    · exact alike_pure _

theorem alike_skipDigits (count : Nat) {fuel fuel' : Nat} (hfuel : cs.length < fuel)
    (hfuel' : cs.length < fuel') :
    Alike tail tail' cs (skipDigits fuel count) (skipDigits fuel' count) := by
  induction cs generalizing fuel fuel' count with
  | nil =>
    obtain ⟨fuel, rfl⟩ := Nat.exists_eq_add_one_of_ne_zero (Nat.ne_zero_of_lt hfuel)
    obtain ⟨fuel', rfl⟩ := Nat.exists_eq_add_one_of_ne_zero (Nat.ne_zero_of_lt hfuel')
    refine Alike.lookPast ht ht' nofun (alike_pure count) ?_ ?_
    all_goals
      rintro (_ | x) ho
      · rfl
      · simp only [ho.isDigit, Bool.false_eq_true, if_false]
  | cons x ds ih =>
    obtain ⟨fuel, rfl⟩ := Nat.exists_eq_add_one_of_ne_zero (Nat.ne_zero_of_lt hfuel)
    obtain ⟨fuel', rfl⟩ := Nat.exists_eq_add_one_of_ne_zero (Nat.ne_zero_of_lt hfuel')
    refine Alike.look ht ht' ?_ nofun
    rintro y es ⟨⟩
    dsimp only
    split
    · exact Alike.pass (ih _ (Nat.lt_of_succ_lt_succ hfuel) (Nat.lt_of_succ_lt_succ hfuel'))
    · exact alike_pure _

omit ht ht' in
theorem alike_floatOf (positive : Bool) (n : Nat) (e : Int) :
    Alike tail tail' cs (floatOf positive n e) (floatOf positive n e) := by
  unfold floatOf
  split
  · exact alike_pure _
  · exact (fails_fail _).alike (fails_fail _)

theorem alike_exponentSign : Alike tail tail' cs exponentSign exponentSign := by
  refine Alike.lookPast ht ht' ?_ (alike_pure true) ?_ ?_
  · rintro x ds rfl
    split
    · exact Alike.pass (alike_pure _)
    · exact Alike.pass (alike_pure _)
    · exact alike_pure _
  all_goals
    intro o ho
    split
    · exact absurd rfl (ho '+' rfl).2.2.2.2.1
    · exact absurd rfl (ho '-' rfl).2.2.2.2.2
    · rfl

theorem alike_exponentDigits (positive up : Bool) (n : Nat) (start : Int) :
    Alike tail tail' cs (exponentDigits positive n start up)
      (exponentDigits positive n start up) := by
  cases cs with
  | nil =>
    refine Alike.takePast ht ht' ?_ ?_
    all_goals
      rintro (_ | x) ho
      · exact fails_fail _
      · simp only [ho.isDigit, Bool.not_false, if_true]
        exact fails_fail _
  | cons x ds =>
    refine Alike.take ?_
    dsimp only
    split
    · exact (fails_fail _).alike (fails_fail _)
    · refine Alike.bounded fun fuel fuel' hfuel hfuel' => ?_
      refine (alike_digitsWithin ht ht' _ _ _ hfuel hfuel').bind fun r es _ => ?_
      obtain ⟨e, -⟩ := r
      refine Alike.lookPast ht ht' ?_
        (alike_floatOf positive n (if up then start + e else start - e)) ?_ ?_
      · rintro y gs rfl
        dsimp only
        split
        · refine Alike.pass ?_
          split
          · exact (fails_fail _).alike (fails_fail _)
          · refine Alike.bounded fun fuel fuel' hfuel hfuel' => ?_
            exact (alike_skipDigits ht ht' _ hfuel hfuel').bind fun _ _ _ => alike_pure _
        · exact alike_floatOf _ _ _
      all_goals
        rintro (_ | x) ho
        · rfl
        · simp only [ho.isDigit, Bool.false_eq_true, if_false]

theorem alike_exponentPart (positive : Bool) (n : Nat) (start : Int) {x : Char} :
    Alike tail tail' (x :: cs) (exponentPart positive n start) (exponentPart positive n start) :=
  Alike.pass ((alike_exponentSign ht ht').bind fun up _ _ =>
    alike_exponentDigits ht ht' positive up n start)

theorem alike_floatEnd (positive : Bool) (n : Nat) (start : Int) :
    Alike tail tail' cs (floatEnd positive n start) (floatEnd positive n start) := by
  refine Alike.lookPast ht ht' ?_ (alike_floatOf positive n start) ?_ ?_
  · rintro x ds rfl
    split
    · exact alike_exponentPart ht ht' positive n start
    · exact alike_exponentPart ht ht' positive n start
    · exact alike_floatOf positive n start
  all_goals
    intro o ho
    split
    · exact absurd rfl (ho 'e' rfl).2.2.1
    · exact absurd rfl (ho 'E' rfl).2.2.2.1
    · rfl

theorem alike_fraction (positive : Bool) (n : Nat) (start : Int) {x : Char} :
    Alike tail tail' (x :: cs) (fraction positive n start) (fraction positive n start) := by
  refine Alike.pass (Alike.bounded fun fuel fuel' hfuel hfuel' => ?_)
  refine (alike_digitsWithin ht ht' _ _ _ hfuel hfuel').bind fun r es _ => ?_
  obtain ⟨m, count⟩ := r
  have hend {ds : List Char} : Alike tail tail' ds (floatEnd positive m (start - count))
      (floatEnd positive m (start - count)) := alike_floatEnd ht ht' positive m (start - count)
  refine Alike.look ht ht' ?_ ?_
  · rintro y gs rfl
    dsimp only
    split
    · refine Alike.bounded fun fuel fuel' hfuel hfuel' => ?_
      exact (alike_skipDigits ht ht' _ hfuel hfuel').bind fun _ _ _ => hend
    · split
      · exact (fails_failNext _).alike (fails_failNext _)
      · exact hend
  · -- without a digit behind the point both runs stop, if not for the same cause
    have hstop (e e' : Cause) : Alike tail tail' []
        (if count = 0 then failNext e else floatEnd positive m (start - count))
        (if count = 0 then failNext e' else floatEnd positive m (start - count)) := by
      split
      · exact (fails_failNext _).alike (fails_failNext _)
      · exact hend
    rintro - (_ | y) (_ | y') ho ho'
    · exact hstop _ _
    · simpa only [ho'.isDigit, Bool.false_eq_true, if_false] using hstop _ _
    · simpa only [ho.isDigit, Bool.false_eq_true, if_false] using hstop _ _
    · simpa only [ho.isDigit, ho'.isDigit, Bool.false_eq_true, if_false] using hstop _ _

theorem alike_wholePart (x : Char) : Alike tail tail' cs (wholePart x) (wholePart x) := by
  unfold wholePart
  split
  · exact alike_pure _
  · exact Alike.map _ (Alike.bounded fun fuel fuel' hfuel hfuel' =>
      alike_digitsWithin ht ht' _ _ _ hfuel hfuel')

/-- What stands behind all digits of the whole part, if it makes the number a float. -/
theorem alike_numberEnd (positive : Bool) (x : Char) (n : Nat) :
    Alike tail tail' cs (numberEnd positive x n) (numberEnd positive x n) := by
  refine Alike.lookPast ht ht' ?_ (alike_pure (numberEnd.whole positive n)) ?_ ?_
  · rintro y ds rfl
    split
    · exact Alike.map _ (alike_fraction ht ht' positive n 0)
    · exact Alike.map _ (alike_exponentPart ht ht' positive n 0)
    · exact Alike.map _ (alike_exponentPart ht ht' positive n 0)
    · split
      · split
        · exact (fails_failNext _).alike (fails_failNext _)
        · refine Alike.bounded fun fuel fuel' hfuel hfuel' => ?_
          refine (alike_skipDigits ht ht' 0 hfuel hfuel').bind fun dropped es _ => ?_
          refine Alike.lookPast ht ht' ?_
            (Alike.map Json.float (alike_floatEnd ht ht' positive n dropped)) ?_ ?_
          · rintro z gs rfl
            split
            · exact Alike.map _ (alike_fraction ht ht' positive n dropped)
            · exact Alike.map _ (alike_floatEnd ht ht' positive n dropped)
          all_goals
            intro o ho
            split
            · exact absurd rfl (ho '.' rfl).2.1
            · rfl
      · exact alike_pure _
    · exact alike_pure _
  all_goals
    intro o ho
    split
    · exact absurd rfl (ho '.' rfl).2.1
    · exact absurd rfl (ho 'e' rfl).2.2.1
    · exact absurd rfl (ho 'E' rfl).2.2.2.1
    · rw [if_neg (by rw [ho.isDigit]; exact Bool.false_ne_true)]
    · rfl

/-- **A number is read as the same in front of both tails.** -/
theorem alike_number (positive : Bool) :
    Alike tail tail' cs (number positive) (number positive) := by
  cases cs with
  | nil =>
    refine Alike.takePast ht ht' ?_ ?_
    all_goals
      rintro (_ | x) ho
      · exact fails_fail _
      · simp only [ho.isDigit, Bool.not_false, if_true]
        exact fails_fail _
  | cons x ds =>
    refine Alike.take ?_
    dsimp only
    split
    · exact (fails_fail _).alike (fails_fail _)
    · exact (alike_wholePart ht ht' x).bind fun n es _ => alike_numberEnd ht ht' positive x n

end number

/-- The start of a text of which the characters are known. -/
theorem start_ofList (cs : List Char) : (Cursor.start (String.ofList cs)).rest = cs ++ [] ∧
    (Cursor.start (String.ofList cs)).rest.length < (Cursor.start (String.ofList cs)).bound := by
  constructor
  · rw [List.append_nil]
    exact String.toList_ofList
  · show (String.ofList cs).toList.length < 2 * ((String.ofList cs).length + 1)
    rw [String.length_toList]
    omega

/-- What comes of a number is its value, if it has one. -/
theorem yields_number {l : Literal} (hl : l.WellFormed) (ht : EndsValue tail) :
    (number (!l.negative)).Yields (l.whole ++ l.tail) tail depth l.value? := by
  intro c hc hbound hdepth
  -- the other run is the one that `Literal.value?` is defined by
  obtain ⟨hrest, hfits⟩ := start_ofList (l.whole ++ l.tail)
  rcases alike_number ht endsValue_nil (!l.negative) c _ hc hrest (by omega) hfits with
    ⟨e, d, e', d', h, h'⟩ | ⟨v, d, d', ds, h, h', -⟩
  · have hvalue : l.value? = none := by
      unfold Literal.value?
      rw [h']
    rw [hvalue]
    exact ⟨e, d, h⟩
  · have hvalue : l.value? = some v := by
      unfold Literal.value?
      rw [h']
    obtain ⟨-, hd, hsame⟩ := takes_number hl ht.endsNumber c hc (by omega) v d h
    rw [hvalue]
    exact ⟨d, h, hd, hsame, (gives_number (!l.negative) 0 c v d rfl h).1⟩

theorem reads_of_value? {l : Literal} (hl : l.WellFormed) {v : Json} (h : l.value? = some v) :
    l.Reads v := by
  obtain ⟨hrest, hfits⟩ := start_ofList (l.whole ++ l.tail)
  unfold Literal.value? at h
  split at h
  · cases h
    exact (takes_number hl endsValue_nil.endsNumber _ hrest hfits _ _ ‹_›).1
  · cases h

/-! ## Numbers that are passed over -/

theorem accepts_digits (hds : Digits ds) (ht : NoDigit tail) :
    (do skipDigits (← bound) 0 : Reader Nat).Accepts ds tail depth ds.length := by
  refine Accepts.bounded ?_
  intro fuel hfuel
  rw [List.length_append] at hfuel
  have hall : (skipDigits fuel 0).Accepts ds tail depth (0 + ds.length) :=
    accepts_skipDigits hds ht 0 (by omega)
  rwa [Nat.zero_add] at hall

theorem accepts_digitsUnit (hds : Digits ds) (ht : NoDigit tail) :
    (do let _ ← skipDigits (← bound) 0 : Reader Unit).Accepts ds tail depth () := by
  refine Accepts.bounded ?_
  intro fuel hfuel
  rw [List.length_append] at hfuel
  exact (accepts_skipDigits hds ht 0 (by omega)).last accepts_pure

theorem accepts_skipExponent {e : Exponent} (he : e.WellFormed) (ht : NoDigit tail) :
    skipNumber.exponent.Accepts e.text tail depth () := by
  obtain ⟨x, ds, hdigits⟩ := List.exists_cons_of_ne_nil he.nonempty
  have hall : Digits (x :: ds) := hdigits ▸ he.digits
  have hx : isDigit x = true := hall x (.head ds)
  -- with a sign or without one, the same digits follow
  have hnext {f : Option Char → Reader Unit}
      (hf : f (some x) = do let _ ← skipDigits (← bound) 0) :
      (next >>= f).Accepts (x :: ds) tail depth () :=
    Accepts.cons (accepts_next x) (hf ▸ accepts_digitsUnit hall.of_cons ht)
  have htext : e.text = e.mark :: (e.sign.toList ++ x :: ds) := hdigits ▸ rfl
  rw [htext]
  refine Accepts.cons (accepts_skip e.mark) (Accepts.first accepts_peek ?_)
  cases hsign : e.sign with
  | none =>
    rw [Option.toList_none, List.nil_append, List.cons_append, List.head?_cons]
    split
    · cases ‹some x = _›
      cases hx
    · cases ‹some x = _›
      cases hx
    · exact hnext (if_pos hx)
  | some y =>
    rcases he.sign y hsign with rfl | rfl
    · exact Accepts.cons (accepts_skip '+') (hnext (if_pos hx))
    · exact Accepts.cons (accepts_skip '-') (hnext (if_pos hx))

/-- What stands behind the whole part of a number. -/
theorem accepts_skipRest {l : Literal} (hl : l.WellFormed) (ht : EndsNumber tail) :
    skipNumber.tail.Accepts l.tail tail depth () := by
  refine Accepts.first accepts_peek ?_
  unfold Literal.tail
  cases hfraction : l.fraction with
  | some ds =>
    obtain ⟨hsome, hds⟩ := hl.fraction ds hfraction
    refine Accepts.cons (accepts_skip '.') ?_
    rw [← bind_assoc]
    refine Accepts.bind (accepts_digits hds (noDigit_exponent hl.exponent ht)) ?_
    rw [if_neg (by rwa [List.length_eq_zero_iff])]
    refine Accepts.first accepts_peek ?_
    cases hexponent : l.exponent with
    | some e =>
      have he := hl.exponent e hexponent
      have hhead : (e.text ++ tail).head? = some e.mark := rfl
      rw [Option.elim_some, hhead]
      rcases he.mark with h | h <;> (rw [h]; exact accepts_skipExponent he ht.noDigit)
    | none =>
      rw [Option.elim_none, List.nil_append]
      split
      · exact absurd rfl (ht 'e' ‹_›).2.2.1
      · exact absurd rfl (ht 'E' ‹_›).2.2.2
      · exact accepts_pure
  | none =>
    rw [Option.elim_none, List.nil_append]
    cases hexponent : l.exponent with
    | some e =>
      have he := hl.exponent e hexponent
      have hhead : (e.text ++ tail).head? = some e.mark := rfl
      rw [Option.elim_some, hhead]
      rcases he.mark with h | h <;> (rw [h]; exact accepts_skipExponent he ht.noDigit)
    | none =>
      rw [Option.elim_none, List.nil_append]
      split
      · exact absurd rfl (ht '.' ‹_›).2.1
      · exact absurd rfl (ht 'e' ‹_›).2.2.1
      · exact absurd rfl (ht 'E' ‹_›).2.2.2
      · exact accepts_pure

/-- **A number that is passed over** may be as large as it likes. -/
theorem accepts_skipLiteral {l : Literal} (hl : l.WellFormed) (ht : EndsNumber tail) :
    skipNumber.Accepts (l.whole ++ l.tail) tail depth () := by
  obtain ⟨x, ds, hwhole⟩ := List.exists_cons_of_ne_nil hl.nonempty
  have hall : Digits (x :: ds) := hwhole ▸ hl.whole
  have hx : isDigit x = true := hall x (.head ds)
  rw [hwhole]
  refine Accepts.cons (accepts_next x) ?_
  split
  · cases ‹some x = some '0'›
    -- a zero is all of the whole part
    obtain rfl : ds = [] := by
      have hleading := hl.leading (by rw [hwhole]; rfl)
      rw [hwhole] at hleading
      exact (List.cons.inj hleading).2
    change Accepts _ l.tail tail depth ()
    refine Accepts.first accepts_peek ?_
    split
    · rw [if_neg (by rw [noDigit_tail hl ht _ ‹_›]; exact Bool.false_ne_true)]
      exact accepts_skipRest hl ht
    · exact accepts_skipRest hl ht
  · cases ‹some x = some _›
    rw [if_pos hx, ← bind_assoc]
    exact Accepts.bind (accepts_digits hall.of_cons (noDigit_tail hl ht)) (accepts_skipRest hl ht)
  · cases ‹some x = none›

end Reader

end ScriptedActions.Json
