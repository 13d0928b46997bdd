import ScriptedActions.Proofs.JsonReading

/-!
# Reading strings, arrays and objects by the grammar

The rest of what a JSON text is made of, after the numbers of `Proofs/JsonReading.lean`, and the
result for whole texts: `parse_reads` says that a text which spells a tree is read as a value that
the tree stands for, if it is read at all.

Strings are the one place where what is read does not follow the parts one by one: the first half
of a surrogate pair is read together with the part behind it, or refused. Values, items and members
call each other, and go down by one step of fuel when they do; so they are dealt with together, by
induction on the fuel (`Reader.takes_all`).
-/

set_option autoImplicit false

namespace ScriptedActions.Json

namespace Reader

variable {α β : Type} {cs ds tail tail' : List Char} {Q : α → Prop}

/-- A reader that comes to no end on a text takes whatever it is asked to. -/
theorem Takes.never {r : Reader α} (h : r.Takes cs tail fun _ => False)
    (heq : cs ++ tail = ds ++ tail') : r.Takes ds tail' Q := by
  intro c hc hbound a c' hr
  exact (h c (hc.trans heq.symm) hbound a c' hr).1.elim

theorem Takes.never_bind {r : Reader α} {g : α → Reader β} {P : β → Prop}
    (h : r.Takes cs tail fun _ => False) (heq : cs ++ tail = ds ++ tail') :
    (r >>= g).Takes ds tail' P :=
  Takes.never (h.last fun _ hfalse => hfalse.elim) heq

/-! ## Strings -/

/-- The four digits of a code unit are taken together. -/
theorem takes_hexEscape {digits : List Char} (h : digits.length = 4) :
    hexEscape.Takes digits tail (hexValue digits = some ·) := by
  intro c hc _ n c' hr
  have hfour : c.rest.take 4 = digits := by rw [hc, ← h, List.take_left]
  have hdrop : c.rest.drop 4 = tail := by rw [hc, ← h, List.drop_left]
  unfold hexEscape at hr
  simp only [hfour, h, if_true] at hr
  cases hvalue : hexValue digits with
  | some m =>
    rw [hvalue] at hr
    cases hr
    exact ⟨rfl, hdrop, rfl⟩
  | none =>
    rw [hvalue] at hr
    dsimp only at hr
    split at hr <;> cases hr

theorem takes_peekInString (x : Char) : peekInString.Takes [] (x :: tail) (· = x) := by
  refine Takes.first takes_peek fun o ho => ?_
  subst ho
  exact takes_pure rfl

/-- Only the character that must come next is passed. -/
theorem takes_secondHalf (x y : Char) : (secondHalf x).Takes [y] tail fun _ => y = x := by
  refine Takes.first (takes_peekInString y) fun z hz => ?_
  subst hz
  by_cases h : z = x
  · subst h
    rw [if_pos (beq_self_eq_true z)]
    exact (takes_skip z).weaken fun _ _ => rfl
  · rw [if_neg (by rwa [beq_iff_eq])]
    intro c _ _ a c' hr
    cases hr

section unicodeEscape

variable {digits : List Char} {n : Nat}

theorem takes_unicodeEscape_low (h : digits.length = 4) (hn : hexValue digits = some n)
    (hlow : isLowSurrogate n = true) : unicodeEscape.Takes digits tail fun _ => False := by
  refine Takes.last (takes_hexEscape h) fun m hm => ?_
  cases hn.symm.trans hm
  unfold isLowSurrogate at hlow
  rw [if_pos hlow]
  exact takes_fail _

/-- A unit that is no half of a pair is a character by itself. -/
theorem takes_unicodeEscape_alone (h : digits.length = 4) (hn : hexValue digits = some n)
    (hlow : isLowSurrogate n = false) (hhigh : isHighSurrogate n = false) :
    unicodeEscape.Takes digits tail (· = Char.ofNat n) := by
  refine Takes.last (takes_hexEscape h) fun m hm => ?_
  cases hn.symm.trans hm
  unfold isLowSurrogate at hlow
  unfold isHighSurrogate at hhigh
  have hout : (decide (n < 0xD800) || decide (0xDBFF < n)) = true := by grind
  rw [hlow, if_neg Bool.false_ne_true, if_pos hout]
  exact takes_pure rfl

/-- Behind the first half of a pair, what must come is `\u` and the second half. -/
theorem takes_unicodeEscape_high (h : digits.length = 4) (hn : hexValue digits = some n)
    (hhigh : isHighSurrogate n = true) {P : Char → Prop}
    (hsecond : (do
      secondHalf '\\'
      secondHalf 'u'
      let m ← hexEscape
      if m < 0xDC00 || 0xDFFF < m then fail .loneSurrogate
      else pure (Char.ofNat ((n - 0xD800) * 1024 + (m - 0xDC00) + 0x10000)) : Reader Char).Takes
        cs tail P) :
    unicodeEscape.Takes (digits ++ cs) tail P := by
  refine Takes.bind (takes_hexEscape h) fun m hm => ?_
  cases hn.symm.trans hm
  unfold isHighSurrogate at hhigh
  have hlow : (decide (0xDC00 ≤ n) && decide (n ≤ 0xDFFF)) = false := by grind
  have hout : (decide (n < 0xD800) || decide (0xDBFF < n)) = false := by grind
  rw [hlow, if_neg Bool.false_ne_true, hout, if_neg Bool.false_ne_true]
  exact hsecond

theorem takes_unicodeEscape_pair (h : digits.length = 4) (hn : hexValue digits = some n)
    (hhigh : isHighSurrogate n = true) {digits' : List Char} (h' : digits'.length = 4) :
    unicodeEscape.Takes (digits ++ '\\' :: 'u' :: digits') tail fun x =>
      ∃ m, hexValue digits' = some m ∧ isLowSurrogate m = true ∧
        x = Char.ofNat ((n - 0xD800) * 1024 + (m - 0xDC00) + 0x10000) := by
  refine takes_unicodeEscape_high h hn hhigh ?_
  refine Takes.cons (takes_secondHalf '\\' _) fun _ _ => ?_
  refine Takes.cons (takes_secondHalf 'u' _) fun _ _ => ?_
  refine Takes.last (takes_hexEscape h') fun m hm => ?_
  by_cases hm' : isLowSurrogate m
  · have hin : (decide (m < 0xDC00) || decide (0xDFFF < m)) = false := by
      unfold isLowSurrogate at hm'
      grind
    rw [hin, if_neg Bool.false_ne_true]
    exact takes_pure ⟨m, hm, hm', rfl⟩
  · have hin : (decide (m < 0xDC00) || decide (0xDFFF < m)) = true := by
      unfold isLowSurrogate at hm'
      grind
    rw [if_pos hin]
    exact takes_fail _

/-- The first half of a pair is refused in front of anything but an escape. -/
theorem takes_unicodeEscape_plain (h : digits.length = 4) (hn : hexValue digits = some n)
    (hhigh : isHighSurrogate n = true) {y : Char} (hy : y ≠ '\\') :
    unicodeEscape.Takes (digits ++ [y]) tail fun _ => False := by
  refine takes_unicodeEscape_high h hn hhigh ?_
  exact Takes.cons (takes_secondHalf '\\' y) fun _ h => absurd h hy

/-- It is refused in front of any other escape as well. -/
theorem takes_unicodeEscape_escape (h : digits.length = 4) (hn : hexValue digits = some n)
    (hhigh : isHighSurrogate n = true) {z : Char} (hz : z ≠ 'u') :
    unicodeEscape.Takes (digits ++ ['\\', z]) tail fun _ => False := by
  refine takes_unicodeEscape_high h hn hhigh ?_
  refine Takes.cons (takes_secondHalf '\\' _) fun _ _ => ?_
  exact Takes.cons (takes_secondHalf 'u' z) fun _ h => absurd h hz

end unicodeEscape

/-- What a string is read as, behind the characters that were read before. -/
def Unescapes (text : String) (pieces : List Piece) (s : String) : Prop :=
  ∃ cs, unescape pieces = some cs ∧ s.toList = text.toList ++ cs

/-- One more character. -/
theorem Unescapes.push {text s : String} {ps ps' : List Piece} {x : Char}
    (h : Unescapes (text.push x) ps s)
    (hps : ∀ cs, unescape ps = some cs → unescape ps' = some (x :: cs)) :
    Unescapes text ps' s := by
  obtain ⟨cs, hcs, hs⟩ := h
  refine ⟨x :: cs, hps cs hcs, ?_⟩
  rw [hs, String.toList_push, List.append_assoc]
  rfl

section stringRest

variable {fuel : Nat} {text : String} {P : String → Prop}

theorem takes_stringRest_plain {c : Char} (hc : (Piece.plain c).WellFormed)
    (hrest : (stringRest fuel (text.push c)).Takes cs tail P) :
    (stringRest (fuel + 1) text).Takes (c :: cs) tail P := by
  obtain ⟨hquote, hescape, hcontrol⟩ := hc
  refine Takes.first takes_peek fun o ho => ?_
  subst ho
  rw [List.cons_append, List.head?_cons]
  split
  · cases ‹some c = none›
  · exact absurd (Option.some.inj ‹_›) hquote
  · exact absurd (Option.some.inj ‹_›) hescape
  · cases ‹some c = some _›
    refine Takes.cons (takes_skip c) fun _ _ => ?_
    rw [if_neg (Nat.not_lt.mpr hcontrol)]
    exact hrest

theorem takes_stringRest_escape {c x : Char} (hx : simpleEscape c = some x)
    (hrest : (stringRest fuel (text.push x)).Takes cs tail P) :
    (stringRest (fuel + 1) text).Takes ('\\' :: c :: cs) tail P := by
  refine Takes.first takes_peek fun o ho => ?_
  subst ho
  refine Takes.cons (takes_skip '\\') fun _ _ => ?_
  refine Takes.cons (takes_next c) fun o ho => ?_
  subst ho
  split
  · cases ‹some c = none›
  · cases ‹some c = some 'u'›
    cases hx
  · cases ‹some c = some _›
    simp only [hx]
    exact hrest

theorem takes_stringRest_unit
    (h : (unicodeEscape >>= fun x => stringRest fuel (text.push x)).Takes cs tail P) :
    (stringRest (fuel + 1) text).Takes ('\\' :: 'u' :: cs) tail P := by
  refine Takes.first takes_peek fun o ho => ?_
  subst ho
  refine Takes.cons (takes_skip '\\') fun _ _ => ?_
  refine Takes.cons (takes_next 'u') fun o ho => ?_
  subst ho
  exact h

/-- The first half of a pair is refused if no other unit stands behind it. -/
theorem takes_unpaired {digits : List Char} {n : Nat} (h : digits.length = 4)
    (hn : hexValue digits = some n) (hhigh : isHighSurrogate n = true) {ps : List Piece}
    (hps : ∀ p ∈ ps, p.WellFormed) (hunit : ∀ ds rest, ps ≠ .unit ds :: rest) (g : Char → Reader β)
    (P : β → Prop) :
    (unicodeEscape >>= g).Takes (digits ++ (ps.flatMap Piece.text ++ ['"'])) tail P := by
  cases ps with
  | nil =>
    have hnever : unicodeEscape.Takes (digits ++ ['"']) tail fun _ => False :=
      takes_unicodeEscape_plain h hn hhigh nofun
    exact hnever.never_bind (by simp)
  | cons p rest =>
    have hp := hps p List.mem_cons_self
    cases p with
    | plain c =>
      have hnever : unicodeEscape.Takes (digits ++ [c]) (rest.flatMap Piece.text ++ '"' :: tail)
          fun _ => False := takes_unicodeEscape_plain h hn hhigh hp.2.1
      exact hnever.never_bind (by simp [Piece.text])
    | escape c =>
      have hc : c ≠ 'u' := by
        rintro rfl
        cases hp
      have hnever : unicodeEscape.Takes (digits ++ ['\\', c])
          (rest.flatMap Piece.text ++ '"' :: tail) fun _ => False :=
        takes_unicodeEscape_escape h hn hhigh hc
      exact hnever.never_bind (by simp [Piece.text])
    | unit ds => exact absurd rfl (hunit ds rest)

/-- **The rest of a string** is read as the characters that its parts stand for. -/
theorem takes_stringRest (pieces : List Piece) (hwf : ∀ p ∈ pieces, p.WellFormed) (fuel : Nat)
    (text : String) :
    (stringRest fuel text).Takes (pieces.flatMap Piece.text ++ ['"']) tail
      (Unescapes text pieces) := by
  -- the cases are those of `unescape`, which looks behind a unit for the second half of a pair
  induction pieces using unescape.induct generalizing fuel text with
  | case1 =>
    cases fuel with
    | zero => exact takes_fail _
    | succ fuel =>
      refine Takes.first takes_peek fun o ho => ?_
      subst ho
      exact Takes.cons (takes_skip '"') fun _ _ =>
        takes_pure ⟨[], rfl, (List.append_nil _).symm⟩
  | case2 c ps ih =>
    cases fuel with
    | zero => exact takes_fail _
    | succ fuel =>
      refine takes_stringRest_plain (hwf (.plain c) List.mem_cons_self) ?_
      refine (ih (fun p hp => hwf p (.tail _ hp)) fuel _).weaken fun s hs => ?_
      refine hs.push fun cs hcs => ?_
      simp only [unescape, hcs, Option.map_some]
  | case3 c ps ih =>
    cases fuel with
    | zero => exact takes_fail _
    | succ fuel =>
      obtain ⟨x, hx⟩ := Option.isSome_iff_exists.mp (hwf (.escape c) List.mem_cons_self)
      refine takes_stringRest_escape hx ?_
      refine (ih (fun p hp => hwf p (.tail _ hp)) fuel _).weaken fun s hs => ?_
      refine hs.push fun cs hcs => ?_
      simp only [unescape, hx, hcs, Option.bind_eq_bind, Option.bind_some, Option.map_some]
  | case4 digits ps ihPair ih =>
    cases fuel with
    | zero => exact takes_fail _
    | succ fuel =>
      obtain ⟨hlength, hvalue⟩ := hwf (.unit digits) List.mem_cons_self
      obtain ⟨n, hn⟩ := Option.isSome_iff_exists.mp hvalue
      have hrest : ∀ p ∈ ps, p.WellFormed := fun p hp => hwf p (.tail _ hp)
      have htext : (Piece.unit digits :: ps).flatMap Piece.text ++ ['"'] =
          '\\' :: 'u' :: (digits ++ (ps.flatMap Piece.text ++ ['"'])) := by simp [Piece.text]
      rw [htext]
      refine takes_stringRest_unit ?_
      by_cases hlow : isLowSurrogate n
      · have hnever : unicodeEscape.Takes digits (ps.flatMap Piece.text ++ ['"'] ++ tail)
            fun _ => False := takes_unicodeEscape_low hlength hn hlow
        exact hnever.never_bind (List.append_assoc _ _ _).symm
      by_cases hhigh : isHighSurrogate n
      · by_cases hpair : ∃ digits' rest, ps = .unit digits' :: rest
        · -- both halves are read at once, so the hypothesis is that for what follows the pair
          obtain ⟨digits', rest, rfl⟩ := hpair
          obtain ⟨hlength', -⟩ := hrest (.unit digits') List.mem_cons_self
          have hsplit : digits ++ ((Piece.unit digits' :: rest).flatMap Piece.text ++ ['"']) =
              (digits ++ '\\' :: 'u' :: digits') ++ (rest.flatMap Piece.text ++ ['"']) := by
            simp [Piece.text]
          rw [hsplit]
          refine Takes.bind (takes_unicodeEscape_pair hlength hn hhigh hlength') fun x hx => ?_
          obtain ⟨m, hm, hmlow, hx⟩ := hx
          refine (ihPair (fun p hp => hrest p (.tail _ hp)) fuel _).weaken fun s hs => ?_
          refine hs.push fun cs hcs => ?_
          simp [unescape, hn, hlow, hhigh, hm, hmlow, hcs, hx]
        · exact takes_unpaired hlength hn hhigh hrest
            (fun ds rest h => hpair ⟨ds, rest, h⟩) _ _
      · refine Takes.bind (takes_unicodeEscape_alone hlength hn (eq_false_of_ne_true hlow)
          (eq_false_of_ne_true hhigh)) fun x hx => ?_
        subst hx
        refine (ih hrest fuel _).weaken fun s hs => ?_
        refine hs.push fun cs hcs => ?_
        simp [unescape, hn, hlow, hhigh, hcs]

end stringRest

/-- A string whose opening quote has been passed. -/
theorem takes_string {pieces : List Piece} (hwf : ∀ p ∈ pieces, p.WellFormed) :
    string.Takes (pieces.flatMap Piece.text ++ ['"']) tail fun s =>
      ∃ cs, unescape pieces = some cs ∧ s = String.ofList cs := by
  refine Takes.first takes_bound fun b _ => ?_
  refine (takes_stringRest pieces hwf b "").weaken fun s hs => ?_
  obtain ⟨cs, hcs, hs⟩ := hs
  refine ⟨cs, hcs, ?_⟩
  rw [← String.ofList_toList (s := s), hs]
  rfl

/-! ## Where values begin and end -/

theorem ne_of_isDigit {x y : Char} (h : isDigit x) (hy : isDigit y = false) : x ≠ y := by
  rintro rfl
  cases h.symm.trans hy

theorem isBlank_of_isDigit {x : Char} (h : isDigit x) : isBlank x = false := by
  unfold isBlank
  simp only [Bool.or_eq_false_iff, beq_eq_false_iff_ne, ne_eq]
  exact ⟨⟨⟨ne_of_isDigit h rfl, ne_of_isDigit h rfl⟩, ne_of_isDigit h rfl⟩, ne_of_isDigit h rfl⟩

/-- A value starts neither with a blank nor with the end of an array. -/
theorem head_of_spells {t : Tree} {cs : List Char} (h : Spells t cs) :
    ∃ x rest, cs = x :: rest ∧ isBlank x = false ∧ x ≠ ']' := by
  cases h with
  | null => exact ⟨_, _, rfl, rfl, by decide⟩
  | true => exact ⟨_, _, rfl, rfl, by decide⟩
  | false => exact ⟨_, _, rfl, rfl, by decide⟩
  | string => exact ⟨_, _, rfl, rfl, by decide⟩
  | array => exact ⟨_, _, rfl, rfl, by decide⟩
  | object => exact ⟨_, _, rfl, rfl, by decide⟩
  | @number l hl =>
    unfold Literal.text
    cases l.negative with
    | true => exact ⟨_, _, rfl, rfl, by decide⟩
    | false =>
      obtain ⟨x, ds, hwhole⟩ := List.exists_cons_of_ne_nil hl.nonempty
      have hx : isDigit x := hl.whole x (hwhole ▸ List.mem_cons_self)
      rw [hwhole]
      exact ⟨x, _, rfl, isBlank_of_isDigit hx, ne_of_isDigit hx rfl⟩

theorem noBlank_nil : NoBlank [] := by
  intro x hx
  cases hx

theorem noBlank_cons {x : Char} {cs : List Char} (h : isBlank x = false) : NoBlank (x :: cs) := by
  intro y hy
  cases hy
  exact h

/-- A text in front of which a value may end: at its end, at a blank, or at what comes next in an
array or an object. -/
def EndsValue (cs : List Char) : Prop :=
  ∀ x ∈ cs.head?, isBlank x ∨ x = ',' ∨ x = ']' ∨ x = '\x7d'

theorem endsValue_nil : EndsValue [] := by
  intro x hx
  cases hx

theorem endsValue_comma (rest : List Char) : EndsValue (',' :: rest) := by
  intro x hx
  cases hx
  exact .inr (.inl rfl)

theorem endsValue_bracket (rest : List Char) : EndsValue (']' :: rest) := by
  intro x hx
  cases hx
  exact .inr (.inr (.inl rfl))

theorem endsValue_brace (rest : List Char) : EndsValue ('\x7d' :: rest) := by
  intro x hx
  cases hx
  exact .inr (.inr (.inr rfl))

theorem EndsValue.endsNumber {cs : List Char} (h : EndsValue cs) : EndsNumber cs := by
  intro x hx
  rcases h x hx with hblank | rfl | rfl | rfl
  · unfold isBlank at hblank
    simp only [Bool.or_eq_true, beq_iff_eq] at hblank
    rcases hblank with ((rfl | rfl) | rfl) | rfl <;> exact ⟨rfl, by decide, by decide, by decide⟩
  · exact ⟨rfl, by decide, by decide, by decide⟩
  · exact ⟨rfl, by decide, by decide, by decide⟩
  · exact ⟨rfl, by decide, by decide, by decide⟩

theorem endsValue_blanks {b rest : List Char} (hb : Blanks b) (h : EndsValue rest) :
    EndsValue (b ++ rest) := by
  cases b with
  | nil => exact h
  | cons x b =>
    intro y hy
    cases hy
    exact .inl (hb x List.mem_cons_self)

/-- Between two items comes a comma. -/
theorem endsValue_separates {a rest : List Char} (h : Separates false a) :
    EndsValue (a ++ rest) := by
  cases h with
  | next hb ha =>
    rw [List.append_assoc]
    exact endsValue_blanks hb (endsValue_comma _)

theorem endsValue_items {ts : List Tree} {ds rest : List Char} (h : SpellsItems false ts ds)
    (hrest : EndsValue rest) : EndsValue (ds ++ rest) := by
  cases h with
  | nil hb => exact endsValue_blanks hb hrest
  | cons hsep _ _ =>
    rw [List.append_assoc]
    exact endsValue_separates hsep

theorem endsValue_members {ms : List (List Piece × Tree)} {ds rest : List Char}
    (h : SpellsMembers false ms ds) (hrest : EndsValue rest) : EndsValue (ds ++ rest) := by
  cases h with
  | nil hb => exact endsValue_blanks hb hrest
  | cons hsep _ _ =>
    rw [List.append_assoc]
    exact endsValue_separates hsep

end Reader

end ScriptedActions.Json
