import ScriptedActions.Proofs.JsonDepth

/-!
# What comes of a reader

`Reader.Takes` says what a reader gives if it comes to an end, and `Reader.Accepts` that it does.
Neither can compare what becomes of two texts, one of which may be refused: for that, the outcome of
a reader has to be said for all texts that the grammar spells, refusals included. `Reader.Yields`
says it: on some characters in front of a tail, when so many more arrays and objects may be opened,
a reader gives a value or stops (`none`).

Outcomes are put behind each other as options are, so the rules read like those of `Reader.Accepts`,
which is the case of an outcome that is a value. That a reader stops often is known already, from a
`Reader.Takes` with a result that cannot be.

Here are the parts of a text that are no values: blanks, separators and strings.
-/

set_option autoImplicit false

namespace ScriptedActions.Json

open Reader (hexValue)

/-- A unit is a character by itself, or the first half of a pair with the unit behind it. -/
theorem unescape_unit {digits : List Char} {ps : List Piece} {n : Nat} {xs : List Char}
    (hn : hexValue digits = some n) (h : unescape (.unit digits :: ps) = some xs) :
    (isLowSurrogate n = false ∧ isHighSurrogate n = false ∧
      ∃ ys, unescape ps = some ys ∧ xs = Char.ofNat n :: ys) ∨
    (isHighSurrogate n = true ∧ ∃ digits' rest m ys, ps = .unit digits' :: rest ∧
      hexValue digits' = some m ∧ isLowSurrogate m = true ∧ unescape rest = some ys ∧
      xs = Char.ofNat ((n - 0xD800) * 1024 + (m - 0xDC00) + 0x10000) :: ys) := by
  unfold unescape at h
  simp only [hn, Option.bind_eq_bind, Option.bind_some] at h
  split at h
  · cases h
  · split at h
    · right
      split at h
      · simp only [Option.bind_eq_some_iff] at h
        obtain ⟨m, hm, h⟩ := h
        split at h
        · obtain ⟨ys, hys, rfl⟩ := Option.map_eq_some_iff.mp h
          exact ⟨‹_›, _, _, m, ys, rfl, hm, ‹_›, hys, rfl⟩
        · cases h
      · cases h
    · left
      obtain ⟨ys, hys, rfl⟩ := Option.map_eq_some_iff.mp h
      exact ⟨eq_false_of_ne_true ‹_›, eq_false_of_ne_true ‹_›, ys, hys, rfl⟩

namespace Reader

variable {α β : Type}

/-- What comes of a reader in front of a tail, if `depth` more arrays and objects may be opened: a
value, behind the characters, or a fault. -/
def Yields (r : Reader α) (cs tail : List Char) (depth : Nat) (o : Option α) : Prop :=
  ∀ c : Cursor, c.rest = cs ++ tail → 2 * c.rest.length < c.bound → c.depth = depth + 1 →
    match o with
    | some a => ∃ c', r c = .ok a c' ∧ c'.rest = tail ∧ c'.bound = c.bound ∧ c'.depth = c.depth
    | none => ∃ e c', r c = .error e c'

/-- A reader never gives a value. -/
def Fails (r : Reader α) : Prop := ∀ c, ∃ e c', r c = .error e c'

variable {cs ds tail : List Char} {depth : Nat} {a : α} {b : β} {o : Option α} {p : Option β}

/-! ## Rules -/

theorem Accepts.yields {r : Reader α} (h : r.Accepts cs tail depth a) :
    r.Yields cs tail depth (some a) := by
  intro c hc hbound hdepth
  exact h c hc hbound (by omega)

/-- A reader that does not come to an end with any value stops. -/
theorem Takes.yields {r : Reader α} (h : r.Takes cs tail fun _ => False) :
    r.Yields cs tail depth none := by
  intro c hc hbound _
  cases hrun : r c with
  | ok a c' => exact (h c hc (by omega) a c' hrun).1.elim
  | error e c' => exact ⟨e, c', rfl⟩

theorem Fails.yields {r : Reader α} (h : r.Fails) : r.Yields cs tail depth none :=
  fun c _ _ _ => h c

theorem fails_fail (cause : Cause) : (fail cause : Reader α).Fails := fun _ => ⟨_, _, rfl⟩

theorem fails_failNext (cause : Cause) : (failNext cause : Reader α).Fails := fun _ => ⟨_, _, rfl⟩

theorem fails_mismatch (reason : String) : (mismatch reason : Reader α).Fails :=
  fun _ => ⟨_, _, rfl⟩

theorem Yields.bind {r : Reader α} {f : α → Reader β} {g : α → Option β}
    (hr : r.Yields cs (ds ++ tail) depth o)
    (hf : ∀ a, o = some a → (f a).Yields ds tail depth (g a)) :
    (r >>= f).Yields (cs ++ ds) tail depth (o.bind g) := by
  intro c hc hbound hdepth
  have hread := hr c (hc.trans (List.append_assoc ..)) hbound hdepth
  change (match o.bind g with
    | some b => ∃ c', EStateM.bind r f c = .ok b c' ∧ _
    | none => ∃ e c', EStateM.bind r f c = .error e c')
  unfold EStateM.bind
  cases o with
  | none =>
    obtain ⟨e, c₁, hrun⟩ := hread
    simp only [hrun, Option.bind_none]
    exact ⟨e, c₁, rfl⟩
  | some a =>
    obtain ⟨c₁, hrun, hrest, hsame, hkept⟩ := hread
    have hbound₁ : 2 * c₁.rest.length < c₁.bound := by
      rw [hc] at hbound
      rw [hrest, hsame]
      simp only [List.length_append] at hbound ⊢
      omega
    have hlast := hf a rfl c₁ hrest hbound₁ (hkept.trans hdepth)
    simp only [hrun, Option.bind_some]
    rwa [hsame, hkept] at hlast

/-- The first reader passes some characters and gives a value. -/
theorem Yields.past {r : Reader α} {f : α → Reader β} (hr : r.Accepts cs (ds ++ tail) depth a)
    (hf : (f a).Yields ds tail depth p) : (r >>= f).Yields (cs ++ ds) tail depth p := by
  refine Yields.bind (g := fun _ => p) hr.yields ?_
  rintro _ ⟨⟩
  exact hf

/-- The first reader looks at what comes, and passes nothing. -/
theorem Yields.first {r : Reader α} {f : α → Reader β} (hr : r.Accepts [] (cs ++ tail) depth a)
    (hf : (f a).Yields cs tail depth p) : (r >>= f).Yields cs tail depth p :=
  Yields.past hr hf

/-- The first reader passes one character. -/
theorem Yields.cons {r : Reader α} {f : α → Reader β} {x : Char}
    (hr : r.Accepts [x] (cs ++ tail) depth a) (hf : (f a).Yields cs tail depth p) :
    (r >>= f).Yields (x :: cs) tail depth p :=
  Yields.past hr hf

/-- The second reader passes nothing more. -/
theorem Yields.last {r : Reader α} {f : α → Reader β} {g : α → Option β}
    (hr : r.Yields cs tail depth o) (hf : ∀ a, o = some a → (f a).Yields [] tail depth (g a)) :
    (r >>= f).Yields cs tail depth (o.bind g) := by
  have h : (r >>= f).Yields (cs ++ []) tail depth (o.bind g) := Yields.bind hr hf
  rwa [List.append_nil] at h

theorem Yields.map {r : Reader α} (f : α → β) (hr : r.Yields cs tail depth o) :
    (f <$> r).Yields cs tail depth (o.map f) := by
  rw [Option.map_eq_bind]
  exact hr.last fun _ _ => accepts_pure.yields

/-- The bound is fuel for what is left. -/
theorem Yields.bounded {f : Nat → Reader β}
    (h : ∀ fuel, 2 * (cs ++ tail).length < fuel → (f fuel).Yields cs tail depth p) :
    (Reader.bound >>= f).Yields cs tail depth p := by
  intro c hc hbound hdepth
  exact h c.bound (hc ▸ hbound) c hc hbound hdepth

/-- There is but one outcome. -/
theorem Yields.unique {r : Reader α} {o' : Option α} (h : r.Yields cs tail depth o)
    (h' : r.Yields cs tail depth o') : o = o' := by
  let c : Cursor := ⟨cs ++ tail, 1, 0, depth + 1, 2 * (cs ++ tail).length + 1⟩
  have hc := h c rfl (Nat.lt_succ_self _) rfl
  have hc' := h' c rfl (Nat.lt_succ_self _) rfl
  cases o <;> cases o'
  · rfl
  · obtain ⟨_, _, hrun⟩ := hc
    obtain ⟨_, hrun', -⟩ := hc'
    cases hrun.symm.trans hrun'
  · obtain ⟨_, hrun, -⟩ := hc
    obtain ⟨_, _, hrun'⟩ := hc'
    cases hrun.symm.trans hrun'
  · obtain ⟨_, hrun, -⟩ := hc
    obtain ⟨_, hrun', -⟩ := hc'
    cases hrun.symm.trans hrun'
    rfl

/-! ## Blanks and separators -/

/-- Blanks are passed before the next character is shown. -/
theorem accepts_blanks {a : List Char} (ha : Blanks a) (ht : NoBlank tail) :
    peekToken.Accepts a tail depth tail.head? := by
  intro c hc _ _
  obtain ⟨hrest, hbound⟩ := rest_afterBlanks ha ht c hc
  refine ⟨afterBlanks c.rest c, ?_, hrest, hbound, depth_afterBlanks c.rest c⟩
  unfold peekToken
  dsimp only
  rw [hrest]

/-- What comes of a whole text, with blanks behind what a reader passes. -/
theorem Yields.run {r : Reader α} {b : List Char} (h : r.Yields cs (b ++ []) 127 o) (hb : Blanks b)
    {text : String} (htext : text.toList = cs ++ b) : (Reader.run r text).toOption = o := by
  have hwhole : (whole r).Yields (cs ++ b) [] 127 (o.bind some) := by
    refine Yields.bind h fun a _ => ?_
    exact Accepts.yields ((accepts_blanks hb noBlank_nil).last accepts_pure)
  rw [Option.bind_fun_some] at hwhole
  have hrest : (Cursor.start text).rest = cs ++ b ++ [] := by
    rw [List.append_nil]
    exact htext
  have hbound : 2 * (Cursor.start text).rest.length < (Cursor.start text).bound := by
    show 2 * text.toList.length < 2 * (text.length + 1)
    rw [String.length_toList]
    omega
  have hrun := hwhole (.start text) hrest hbound rfl
  unfold Reader.run
  cases o with
  | none =>
    obtain ⟨e, c', hrun⟩ := hrun
    rw [hrun]
    rfl
  | some a =>
    obtain ⟨c', hrun, -⟩ := hrun
    rw [hrun]
    rfl

theorem accepts_itemsEnd (first : Bool) {b : List Char} (hb : Blanks b) :
    (moreItems first).Accepts b (']' :: tail) depth false :=
  (accepts_blanks hb (noBlank_cons rfl)).last accepts_pure

/-- In front of an item, which does not start like the end of an array. -/
theorem accepts_nextItem {first : Bool} {a : List Char} (ha : Separates first a) {x : Char}
    (hx : isBlank x = false) (hend : x ≠ ']') :
    (moreItems first).Accepts a (x :: tail) depth true := by
  cases ha with
  | first ha =>
    refine (accepts_blanks ha (noBlank_cons hx)).last ?_
    rw [List.head?_cons]
    split
    · cases ‹some x = none›
    · exact absurd (Option.some.inj ‹_›) hend
    · exact accepts_pure
  | next hb ha =>
    refine Accepts.bind (accepts_blanks hb (noBlank_cons rfl)) ?_
    refine Accepts.cons (accepts_skip ',') ?_
    refine (accepts_blanks ha (noBlank_cons hx)).last ?_
    rw [List.head?_cons]
    split
    · exact absurd (Option.some.inj ‹_›) hend
    · exact accepts_pure
    · cases ‹some x = none›

theorem accepts_membersEnd (first : Bool) {b : List Char} (hb : Blanks b) :
    (moreMembers first).Accepts b ('\x7d' :: tail) depth false :=
  (accepts_blanks hb (noBlank_cons rfl)).last accepts_pure

theorem accepts_nextMember {first : Bool} {a : List Char} (ha : Separates first a) :
    (moreMembers first).Accepts a ('"' :: tail) depth true := by
  cases ha with
  | first ha => exact (accepts_blanks ha (noBlank_cons rfl)).last accepts_pure
  | next hb ha =>
    refine Accepts.bind (accepts_blanks hb (noBlank_cons rfl)) ?_
    refine Accepts.cons (accepts_skip ',') ?_
    exact (accepts_blanks ha (noBlank_cons rfl)).last accepts_pure

theorem accepts_blankColon {b : List Char} (hb : Blanks b) :
    colon.Accepts (b ++ [':']) tail depth () :=
  Accepts.bind (accepts_blanks hb (noBlank_cons rfl)) (accepts_skip ':')

/-! ## Strings -/

section unicodeEscape

variable {digits : List Char} {n : Nat}

/-- A unit that is no half of a pair is a character by itself. -/
theorem accepts_unit (h : digits.length = 4) (hn : hexValue digits = some n)
    (hlow : isLowSurrogate n = false) (hhigh : isHighSurrogate n = false) :
    unicodeEscape.Accepts digits tail depth (Char.ofNat n) := by
  refine (accepts_hexEscape h hn).last ?_
  unfold isLowSurrogate at hlow
  unfold isHighSurrogate at hhigh
  have hout : (decide (n < 0xD800) || decide (0xDBFF < n)) = true := by grind
  rw [hlow, if_neg Bool.false_ne_true, if_pos hout]
  exact accepts_pure

theorem accepts_pair (h : digits.length = 4) (hn : hexValue digits = some n)
    (hhigh : isHighSurrogate n = true) {digits' : List Char} {m : Nat} (h' : digits'.length = 4)
    (hm : hexValue digits' = some m) (hlow : isLowSurrogate m = true) :
    unicodeEscape.Accepts (digits ++ '\\' :: 'u' :: digits') tail depth
      (Char.ofNat ((n - 0xD800) * 1024 + (m - 0xDC00) + 0x10000)) := by
  have hsecond (x : Char) (rest : List Char) : (secondHalf x).Accepts [x] rest depth () := by
    refine Accepts.first (a := x) (accepts_peek.last accepts_pure) ?_
    rw [if_pos (beq_self_eq_true x)]
    exact accepts_skip x
  refine Accepts.bind (accepts_hexEscape h hn) ?_
  unfold isHighSurrogate at hhigh
  unfold isLowSurrogate at hlow
  have hnotLow : (decide (0xDC00 ≤ n) && decide (n ≤ 0xDFFF)) = false := by grind
  have hin : (decide (n < 0xD800) || decide (0xDBFF < n)) = false := by grind
  have hin' : (decide (m < 0xDC00) || decide (0xDFFF < m)) = false := by grind
  rw [hnotLow, if_neg Bool.false_ne_true, hin, if_neg Bool.false_ne_true]
  refine Accepts.cons (hsecond '\\' _) (Accepts.cons (hsecond 'u' _) ?_)
  refine (accepts_hexEscape h' hm).last ?_
  rw [hin', if_neg Bool.false_ne_true]
  exact accepts_pure

end unicodeEscape

section stringRest

variable {fuel : Nat} {text s : String}

theorem accepts_stringRest_plain {c : Char} (hc : (Piece.plain c).WellFormed)
    (hrest : (stringRest fuel (text.push c)).Accepts cs tail depth s) :
    (stringRest (fuel + 1) text).Accepts (c :: cs) tail depth s := by
  obtain ⟨hquote, hescape, hcontrol⟩ := hc
  refine Accepts.first accepts_peek ?_
  rw [List.cons_append, List.head?_cons]
  split
  · cases ‹some c = none›
  · exact absurd (Option.some.inj ‹_›) hquote
  · exact absurd (Option.some.inj ‹_›) hescape
  · cases ‹some c = some _›
    refine Accepts.cons (accepts_skip c) ?_
    rw [if_neg (Nat.not_lt.mpr hcontrol)]
    exact hrest

theorem accepts_stringRest_escape {c x : Char} (hx : simpleEscape c = some x)
    (hrest : (stringRest fuel (text.push x)).Accepts cs tail depth s) :
    (stringRest (fuel + 1) text).Accepts ('\\' :: c :: cs) tail depth s := by
  refine Accepts.first accepts_peek ?_
  refine Accepts.cons (accepts_skip '\\') (Accepts.cons (accepts_next c) ?_)
  split
  · cases ‹some c = none›
  · cases ‹some c = some 'u'›
    cases hx
  · cases ‹some c = some _›
    simp only [hx]
    exact hrest

theorem accepts_stringRest_unit {x : Char}
    (hx : unicodeEscape.Accepts cs (ds ++ tail) depth x)
    (hrest : (stringRest fuel (text.push x)).Accepts ds tail depth s) :
    (stringRest (fuel + 1) text).Accepts ('\\' :: 'u' :: (cs ++ ds)) tail depth s := by
  refine Accepts.first accepts_peek ?_
  refine Accepts.cons (accepts_skip '\\') (Accepts.cons (accepts_next 'u') ?_)
  exact Accepts.bind hx hrest

/-- One more character in front of those that are still to be read. -/
theorem Accepts.push {r : Reader String} {x : Char} {xs : List Char}
    (h : r.Accepts cs tail depth (String.ofList ((text.push x).toList ++ xs))) :
    r.Accepts cs tail depth (String.ofList (text.toList ++ x :: xs)) := by
  rwa [String.toList_push, List.append_assoc] at h

end stringRest

/-- **The rest of a string** that stands for some characters is read as these. -/
theorem accepts_pieces (pieces : List Piece) (hwf : ∀ p ∈ pieces, p.WellFormed)
    {xs : List Char} (hxs : unescape pieces = some xs) {fuel : Nat}
    (hfuel : (pieces.flatMap Piece.text).length < fuel) (text : String) :
    (stringRest fuel text).Accepts (pieces.flatMap Piece.text ++ ['"']) tail depth
      (String.ofList (text.toList ++ xs)) := by
  -- the cases are those of `unescape`, which looks behind a unit for the second half of a pair
  induction pieces using unescape.induct generalizing fuel text xs with
  | case1 =>
    obtain ⟨fuel, rfl⟩ := Nat.exists_eq_add_one_of_ne_zero (Nat.ne_zero_of_lt hfuel)
    cases hxs
    rw [List.append_nil, String.ofList_toList]
    exact Accepts.first accepts_peek ((accepts_skip '"').last accepts_pure)
  | case2 c ps ih =>
    obtain ⟨fuel, rfl⟩ := Nat.exists_eq_add_one_of_ne_zero (Nat.ne_zero_of_lt hfuel)
    simp only [List.flatMap_cons, Piece.text, List.length_append, List.length_cons] at hfuel
    simp only [unescape, Option.map_eq_some_iff] at hxs
    obtain ⟨ys, hys, rfl⟩ := hxs
    refine accepts_stringRest_plain (hwf _ List.mem_cons_self) (Accepts.push ?_)
    exact ih (fun p hp => hwf p (.tail _ hp)) hys (by omega) _
  | case3 c ps ih =>
    obtain ⟨fuel, rfl⟩ := Nat.exists_eq_add_one_of_ne_zero (Nat.ne_zero_of_lt hfuel)
    simp only [List.flatMap_cons, Piece.text, List.length_append, List.length_cons] at hfuel
    simp only [unescape, Option.bind_eq_bind, Option.bind_eq_some_iff,
      Option.map_eq_some_iff] at hxs
    obtain ⟨x, hx, ys, hys, rfl⟩ := hxs
    refine accepts_stringRest_escape hx (Accepts.push ?_)
    exact ih (fun p hp => hwf p (.tail _ hp)) hys (by omega) _
  | case4 digits ps ihPair ih =>
    obtain ⟨fuel, rfl⟩ := Nat.exists_eq_add_one_of_ne_zero (Nat.ne_zero_of_lt hfuel)
    obtain ⟨hlength, hvalue⟩ := hwf (.unit digits) List.mem_cons_self
    obtain ⟨n, hn⟩ := Option.isSome_iff_exists.mp hvalue
    have hrest : ∀ p ∈ ps, p.WellFormed := fun p hp => hwf p (.tail _ hp)
    rcases unescape_unit hn hxs with ⟨hlow, hhigh, ys, hys, rfl⟩ |
      ⟨hhigh, digits', rest, m, ys, rfl, hm, hlow, hys, rfl⟩
    · have htext : (Piece.unit digits :: ps).flatMap Piece.text ++ ['"'] =
          '\\' :: 'u' :: (digits ++ (ps.flatMap Piece.text ++ ['"'])) := by simp [Piece.text]
      simp only [List.flatMap_cons, Piece.text, List.length_append, List.length_cons] at hfuel
      rw [htext]
      refine accepts_stringRest_unit (accepts_unit hlength hn hlow hhigh) (Accepts.push ?_)
      exact ih hrest hys (by omega) _
    · obtain ⟨hlength', -⟩ := hrest (.unit digits') List.mem_cons_self
      have htext : (Piece.unit digits :: .unit digits' :: rest).flatMap Piece.text ++ ['"'] =
          '\\' :: 'u' :: ((digits ++ '\\' :: 'u' :: digits') ++
            (rest.flatMap Piece.text ++ ['"'])) := by simp [Piece.text]
      simp only [List.flatMap_cons, Piece.text, List.length_append, List.length_cons] at hfuel
      rw [htext]
      refine accepts_stringRest_unit (accepts_pair hlength hn hhigh hlength' hm hlow)
        (Accepts.push ?_)
      exact ihPair (fun p hp => hrest p (.tail _ hp)) hys (by omega) _

/-- A string whose opening quote has been passed: it is refused if it stands for no characters. -/
theorem yields_string {pieces : List Piece} (hwf : ∀ p ∈ pieces, p.WellFormed) :
    string.Yields (pieces.flatMap Piece.text ++ ['"']) tail depth
      ((unescape pieces).map String.ofList) := by
  cases hxs : unescape pieces with
  | none =>
    refine Takes.yields ((takes_string hwf).weaken ?_)
    rintro s ⟨cs, hcs, -⟩
    cases hxs.symm.trans hcs
  | some xs =>
    refine Accepts.yields (Accepts.bounded ?_)
    intro fuel hfuel
    simp only [List.length_append] at hfuel
    exact accepts_pieces pieces hwf hxs (by omega) ""

theorem yields_memberName {pieces : List Piece} (hwf : ∀ p ∈ pieces, p.WellFormed) :
    memberName.Yields (quoted pieces) tail depth ((unescape pieces).map String.ofList) :=
  Yields.cons (accepts_skip '"') (yields_string hwf)

section skipStringRest

variable {fuel : Nat}

theorem accepts_skipStringRest_plain {c : Char} (hc : (Piece.plain c).WellFormed)
    (hrest : (skipStringRest fuel).Accepts cs tail depth ()) :
    (skipStringRest (fuel + 1)).Accepts (c :: cs) tail depth () := by
  obtain ⟨hquote, hescape, hcontrol⟩ := hc
  refine Accepts.first accepts_peek ?_
  rw [List.cons_append, List.head?_cons]
  split
  · cases ‹some c = none›
  · exact absurd (Option.some.inj ‹_›) hquote
  · exact absurd (Option.some.inj ‹_›) hescape
  · cases ‹some c = some _›
    rw [if_neg (Nat.not_lt.mpr hcontrol)]
    exact Accepts.cons (accepts_skip c) hrest

theorem accepts_skipStringRest_escape {c : Char} (hc : (Piece.escape c).WellFormed)
    (hrest : (skipStringRest fuel).Accepts cs tail depth ()) :
    (skipStringRest (fuel + 1)).Accepts ('\\' :: c :: cs) tail depth () := by
  refine Accepts.first accepts_peek ?_
  refine Accepts.cons (accepts_skip '\\') (Accepts.cons (accepts_next c) ?_)
  split
  · cases ‹some c = none›
  · cases ‹some c = some 'u'›
    cases hc
  · cases ‹some c = some _›
    have hsimple : (simpleEscape c).isSome = true := hc
    rw [if_pos hsimple]
    exact hrest

theorem accepts_skipStringRest_unit {digits : List Char} (h : (Piece.unit digits).WellFormed)
    (hrest : (skipStringRest fuel).Accepts cs tail depth ()) :
    (skipStringRest (fuel + 1)).Accepts ('\\' :: 'u' :: (digits ++ cs)) tail depth () := by
  obtain ⟨hlength, hvalue⟩ := h
  obtain ⟨n, hn⟩ := Option.isSome_iff_exists.mp hvalue
  refine Accepts.first accepts_peek ?_
  refine Accepts.cons (accepts_skip '\\') (Accepts.cons (accepts_next 'u') ?_)
  exact Accepts.bind (accepts_hexEscape hlength hn) hrest

end skipStringRest

/-- The escapes of a string that is passed over need not form characters. -/
theorem accepts_skipPieces (pieces : List Piece) (hwf : ∀ p ∈ pieces, p.WellFormed) {fuel : Nat}
    (hfuel : (pieces.flatMap Piece.text).length < fuel) :
    (skipStringRest fuel).Accepts (pieces.flatMap Piece.text ++ ['"']) tail depth () := by
  induction pieces generalizing fuel with
  | nil =>
    obtain ⟨fuel, rfl⟩ := Nat.exists_eq_add_one_of_ne_zero (Nat.ne_zero_of_lt hfuel)
    exact Accepts.first accepts_peek (accepts_skip '"')
  | cons piece ps ih =>
    obtain ⟨fuel, rfl⟩ := Nat.exists_eq_add_one_of_ne_zero (Nat.ne_zero_of_lt hfuel)
    have hpiece := hwf piece List.mem_cons_self
    rw [List.flatMap_cons, List.append_assoc]
    rw [List.flatMap_cons, List.length_append] at hfuel
    have hrest (hless : (ps.flatMap Piece.text).length < fuel) :
        (skipStringRest fuel).Accepts (ps.flatMap Piece.text ++ ['"']) tail depth () :=
      ih (fun p hp => hwf p (.tail _ hp)) hless
    cases piece with
    | plain c =>
      simp only [Piece.text, List.length_cons] at hfuel
      exact accepts_skipStringRest_plain hpiece (hrest (by omega))
    | escape c =>
      simp only [Piece.text, List.length_cons] at hfuel
      exact accepts_skipStringRest_escape hpiece (hrest (by omega))
    | unit digits =>
      simp only [Piece.text, List.length_cons] at hfuel
      exact accepts_skipStringRest_unit hpiece (hrest (by omega))

theorem accepts_passString {pieces : List Piece} (hwf : ∀ p ∈ pieces, p.WellFormed) :
    (do skipStringRest (← bound) : Reader Unit).Accepts (pieces.flatMap Piece.text ++ ['"']) tail
      depth () := by
  refine Accepts.bounded ?_
  intro fuel hfuel
  simp only [List.length_append] at hfuel
  exact accepts_skipPieces pieces hwf (by omega)

end Reader

end ScriptedActions.Json
