import ScriptedActions.Proofs.JsonDepth

/-!
# What is passed over is JSON

A raw text is the text of a value (`Reader.gives_rawText`): whatever was passed over to find its
end, the grammar spells it. That every text of the grammar is passed over is known already; this is
the other half, and it takes no text for granted.

A passed value need not be a value that can be read. Its numbers can be too large, its escapes no
characters, and its depth beyond every limit: a tree keeps literals, so it has a place for all of
them.

`Reader.Leaves` says what is true of the characters that a reader leaves when it comes to an end. It
follows the readers of `Json/Reader.lean` in the order in which they call each other. Fuel does not
matter here: a reader that runs out of it among digits has passed digits all the same.
-/

set_option autoImplicit false

namespace ScriptedActions.Json

/-! ## Spelling -/

theorem Literal.WellFormed.signed {l : Literal} (h : l.WellFormed) (negative : Bool) :
    { l with negative }.WellFormed :=
  ⟨h.whole, h.nonempty, h.leading, h.fraction, h.exponent⟩

theorem Separates.blanks {first : Bool} {a b : List Char} (h : Separates first a) (hb : Blanks b) :
    Separates first (a ++ b) := by
  have happend {c : List Char} (hc : Blanks c) : Blanks (c ++ b) := by
    intro x hx
    rcases List.mem_append.mp hx with hx | hx
    · exact hc x hx
    · exact hb x hx
  cases h with
  | first ha => exact .first (happend ha)
  | next hc ha =>
    rw [List.append_assoc, List.cons_append]
    exact .next hc (happend ha)

/-- Items that are the first ones can stand behind others. -/
theorem SpellsItems.behind {t : Tree} {ts : List Tree} {first : Bool} {a ds : List Char}
    (h : SpellsItems true (t :: ts) ds) (ha : Separates first a) :
    SpellsItems first (t :: ts) (a ++ ds) := by
  cases h with
  | cons hsep ht hts =>
    cases hsep with
    | first hb =>
      rw [← List.append_assoc]
      exact .cons (ha.blanks hb) ht hts

theorem SpellsMembers.behind {m : List Piece × Tree} {ms : List (List Piece × Tree)}
    {first : Bool} {a ds : List Char} (h : SpellsMembers true (m :: ms) ds)
    (ha : Separates first a) : SpellsMembers first (m :: ms) (a ++ ds) := by
  cases h with
  | cons hsep hm hms =>
    cases hsep with
    | first hb =>
      rw [← List.append_assoc]
      exact .cons (ha.blanks hb) hm hms

namespace Reader

variable {α β : Type} {cs : List Char} {P Q : α → List Char → Prop} {R : β → List Char → Prop}

/-- In front of some characters, a reader that comes to an end has left characters of a kind. -/
def Leaves (r : Reader α) (cs : List Char) (Q : α → List Char → Prop) : Prop :=
  ∀ c a c', c.rest = cs → r c = .ok a c' → Q a c'.rest

/-! ## Rules -/

theorem leaves_pure {a : α} (h : Q a cs) : (pure a : Reader α).Leaves cs Q := by
  intro c b c' hc hrun
  cases hrun
  exact hc ▸ h

theorem Leaves.bind {r : Reader α} {f : α → Reader β} (hr : r.Leaves cs P)
    (hf : ∀ a rest, P a rest → (f a).Leaves rest R) : (r >>= f).Leaves cs R := by
  intro c b c' hc hrun
  obtain ⟨a, c₁, hfirst, hsecond⟩ := of_bind_ok hrun
  exact hf a c₁.rest (hr c a c₁ hc hfirst) c₁ b c' rfl hsecond

theorem Leaves.weaken {r : Reader α} (hr : r.Leaves cs P) (h : ∀ a rest, P a rest → Q a rest) :
    r.Leaves cs Q := by
  intro c a c' hc hrun
  exact h a c'.rest (hr c a c' hc hrun)

theorem leaves_fail (cause : Cause) : (fail cause : Reader α).Leaves cs Q := nofun

theorem leaves_failNext (cause : Cause) : (failNext cause : Reader α).Leaves cs Q := nofun

/-- A bound can be any number. -/
theorem Leaves.bounded {f : Nat → Reader β} (h : ∀ fuel, (f fuel).Leaves cs R) :
    (bound >>= f).Leaves cs R := by
  intro c b c' hc hrun
  exact h c.bound c b c' hc hrun

/-! ## Single characters -/

theorem Leaves.peeked {f : Option Char → Reader β} (h : (f cs.head?).Leaves cs R) :
    (peek >>= f).Leaves cs R := by
  intro c b c' hc hrun
  subst hc
  exact h c b c' rfl hrun

theorem leaves_skip (x : Char) : skip.Leaves (x :: cs) fun _ rest => rest = cs := by
  intro c a c' hc hrun
  cases hrun
  exact (Cursor.rest_advance hc).1

theorem Leaves.skipped {x : Char} {f : Unit → Reader β} (h : (f ()).Leaves cs R) :
    (skip >>= f).Leaves (x :: cs) R :=
  (leaves_skip x).bind fun _ _ hrest => hrest ▸ h

theorem Leaves.took {x : Char} {f : Option Char → Reader β} (h : (f (some x)).Leaves cs R) :
    (next >>= f).Leaves (x :: cs) R := by
  intro c b c' hc hrun
  have hsecond : f c.rest.head? c.advance = .ok b c' := hrun
  rw [hc] at hsecond
  exact h c.advance b c' (Cursor.rest_advance hc).1 hsecond

/-- At the end of a text nothing is taken. -/
theorem Leaves.tookNone {f : Option Char → Reader β} (h : (f none).Leaves [] R) :
    (next >>= f).Leaves [] R := by
  intro c b c' hc hrun
  have hsecond : f c.rest.head? c.advance = .ok b c' := hrun
  have hstay : c.advance = c := by
    unfold Cursor.advance
    rw [hc]
  rw [hc, hstay] at hsecond
  exact h c b c' hc hsecond

theorem exists_blanks (cs : List Char) (c : Cursor) (hc : c.rest = cs) : ∃ b, Blanks b ∧
    NoBlank (afterBlanks cs c).rest ∧ cs = b ++ (afterBlanks cs c).rest := by
  induction cs generalizing c with
  | nil =>
    refine ⟨[], nofun, ?_, ?_⟩
    · show NoBlank c.rest
      exact hc ▸ noBlank_nil
    · exact hc.symm
  | cons x rest ih =>
    unfold afterBlanks
    split
    · rename_i hx
      obtain ⟨b, hb, hrest, htext⟩ := ih c.advance (Cursor.rest_advance hc).1
      refine ⟨x :: b, ?_, hrest, congrArg (x :: ·) htext⟩
      intro y hy
      rcases List.mem_cons.mp hy with rfl | hy
      · exact hx
      · exact hb y hy
    · rename_i hx
      rw [Bool.not_eq_true] at hx
      exact ⟨[], nofun, hc ▸ noBlank_cons hx, hc.symm⟩

/-- Blanks are passed, and what comes next is none. -/
theorem Leaves.token {f : Option Char → Reader β}
    (h : ∀ b rest, Blanks b → NoBlank rest → cs = b ++ rest → (f rest.head?).Leaves rest R) :
    (peekToken >>= f).Leaves cs R := by
  intro c a c' hc hrun
  obtain ⟨b, hb, hrest, htext⟩ := exists_blanks cs c hc
  subst hc
  exact h b _ hb hrest htext _ a c' rfl hrun

theorem leaves_word (xs : List Char) : (word xs).Leaves cs fun _ rest => cs = xs ++ rest := by
  induction xs generalizing cs with
  | nil => exact leaves_pure rfl
  | cons x xs ih =>
    cases cs with
    | nil => exact Leaves.tookNone (leaves_fail _)
    | cons y cs =>
      refine Leaves.took ?_
      dsimp only
      split
      · rename_i hsame
        obtain rfl : x = y := beq_iff_eq.mp hsame
        exact ih.weaken fun _ rest hrest => congrArg (x :: ·) hrest
      · exact leaves_fail _

/-! ## Strings -/

theorem leaves_hexEscape : hexEscape.Leaves cs fun _ rest =>
    ∃ digits, digits.length = 4 ∧ (hexValue digits).isSome ∧ cs = digits ++ rest := by
  intro c n c' hc hrun
  subst hc
  unfold hexEscape at hrun
  dsimp only at hrun
  split at hrun
  · rename_i hvalue
    cases hrun
    split at hvalue
    · refine ⟨c.rest.take 4, ‹_›, ?_, (List.take_append_drop 4 c.rest).symm⟩
      rw [hvalue]
      rfl
    · cases hvalue
  · split at hrun <;> cases hrun

/-- The characters behind an opening quote are the parts of a string, up to another quote. -/
def PassedString (cs rest : List Char) : Prop :=
  ∃ pieces : List Piece, (∀ p ∈ pieces, p.WellFormed) ∧
    cs = pieces.flatMap Piece.text ++ '"' :: rest

theorem PassedString.cons {p : Piece} {cs rest : List Char} (hp : p.WellFormed)
    (h : PassedString cs rest) : PassedString (p.text ++ cs) rest := by
  obtain ⟨pieces, hwf, rfl⟩ := h
  refine ⟨p :: pieces, ?_, ?_⟩
  · intro q hq
    rcases List.mem_cons.mp hq with rfl | hq
    · exact hp
    · exact hwf q hq
  · rw [List.flatMap_cons, List.append_assoc]

theorem leaves_skipStringRest (fuel : Nat) :
    (skipStringRest fuel).Leaves cs fun _ rest => PassedString cs rest := by
  induction fuel generalizing cs with
  | zero => exact leaves_fail _
  | succ fuel ih =>
    refine Leaves.peeked ?_
    cases cs with
    | nil => exact leaves_fail _
    | cons x cs =>
      rw [List.head?_cons]
      split
      · cases ‹some x = none›
      · -- the quote at the end
        cases ‹some x = some '"'›
        refine (leaves_skip _).weaken fun _ rest hrest => ?_
        exact ⟨[], nofun, congrArg ('"' :: ·) hrest.symm⟩
      · cases ‹some x = some '\\'›
        refine Leaves.skipped ?_
        cases cs with
        | nil => exact Leaves.tookNone (leaves_fail _)
        | cons e cs =>
          refine Leaves.took ?_
          split
          · cases ‹some e = none›
          · cases ‹some e = some 'u'›
            refine leaves_hexEscape.bind ?_
            rintro _ after ⟨digits, hlength, hvalue, rfl⟩
            have hp : (Piece.unit digits).WellFormed := ⟨hlength, hvalue⟩
            exact ih.weaken fun _ rest hrest => hrest.cons hp
          · cases ‹some e = some _›
            split
            · have hp : (Piece.escape e).WellFormed := ‹_›
              exact ih.weaken fun _ rest hrest => hrest.cons hp
            · exact leaves_fail _
      · rename_i hquote hslash hx
        cases hx
        split
        · exact leaves_fail _
        · have hp : (Piece.plain x).WellFormed :=
            ⟨hquote, hslash, Nat.le_of_not_lt ‹_›⟩
          refine Leaves.skipped ?_
          exact ih.weaken fun _ rest hrest => hrest.cons hp

/-! ## Numbers -/

theorem digits_cons {x : Char} {ds : List Char} (hx : isDigit x) (hds : Digits ds) :
    Digits (x :: ds) := by
  intro y hy
  rcases List.mem_cons.mp hy with rfl | hy
  · exact hx
  · exact hds y hy

theorem leaves_skipDigits (fuel count : Nat) : (skipDigits fuel count).Leaves cs fun n rest =>
    ∃ ds, Digits ds ∧ n = count + ds.length ∧ cs = ds ++ rest := by
  induction fuel generalizing cs count with
  | zero => exact leaves_pure ⟨[], nofun, rfl, rfl⟩
  | succ fuel ih =>
    refine Leaves.peeked ?_
    cases cs with
    | nil => exact leaves_pure ⟨[], nofun, rfl, rfl⟩
    | cons x cs =>
      rw [List.head?_cons]
      dsimp only
      split
      · rename_i hx
        refine Leaves.skipped ((ih (count + 1)).weaken ?_)
        rintro n rest ⟨ds, hds, rfl, rfl⟩
        refine ⟨x :: ds, digits_cons hx hds, ?_, rfl⟩
        rw [List.length_cons]
        omega
      · exact leaves_pure ⟨[], nofun, rfl, rfl⟩

/-- The digits of an exponent, of which there is one at least. -/
theorem leaves_exponentDigits : (do
      match ← next with
      | some x =>
        if isDigit x then
          let _ ← skipDigits (← bound) 0
        else fail .invalidNumber
      | none => fail .invalidNumber : Reader Unit).Leaves cs fun _ rest =>
    ∃ ds, Digits ds ∧ ds ≠ [] ∧ cs = ds ++ rest := by
  cases cs with
  | nil => exact Leaves.tookNone (leaves_fail _)
  | cons x cs =>
    refine Leaves.took ?_
    dsimp only
    split
    · rename_i hx
      refine Leaves.bounded fun fuel => (leaves_skipDigits fuel 0).bind ?_
      rintro _ rest ⟨ds, hds, -, rfl⟩
      exact leaves_pure ⟨x :: ds, digits_cons hx hds, List.cons_ne_nil x ds, rfl⟩
    · exact leaves_fail _

theorem leaves_skipExponent {m : Char} (hm : m = 'e' ∨ m = 'E') :
    skipNumber.exponent.Leaves (m :: cs) fun _ rest =>
      ∃ e : Exponent, e.WellFormed ∧ m :: cs = e.text ++ rest := by
  refine Leaves.skipped (Leaves.peeked ?_)
  -- what follows the sign, if there is one
  have hdigits (sign : Option Char) (hsign : ∀ s ∈ sign, s = '+' ∨ s = '-') (ds rest : List Char)
      (h : Digits ds ∧ ds ≠ [] ∧ cs = sign.toList ++ (ds ++ rest)) :
      ∃ e : Exponent, e.WellFormed ∧ m :: cs = e.text ++ rest := by
    obtain ⟨hds, hne, rfl⟩ := h
    refine ⟨⟨m, sign, ds⟩, ⟨hm, hsign, hds, hne⟩, ?_⟩
    unfold Exponent.text
    rw [List.cons_append, List.cons_append, List.append_assoc]
  split
  · obtain ⟨cs, rfl⟩ := List.head?_eq_some_iff.mp ‹_›
    refine Leaves.skipped (leaves_exponentDigits.weaken ?_)
    rintro _ rest ⟨ds, hds, hne, rfl⟩
    exact hdigits (some '+') (fun s hs => .inl (Option.some.inj hs).symm) ds rest ⟨hds, hne, rfl⟩
  · obtain ⟨cs, rfl⟩ := List.head?_eq_some_iff.mp ‹_›
    refine Leaves.skipped (leaves_exponentDigits.weaken ?_)
    rintro _ rest ⟨ds, hds, hne, rfl⟩
    exact hdigits (some '-') (fun s hs => .inr (Option.some.inj hs).symm) ds rest ⟨hds, hne, rfl⟩
  · refine leaves_exponentDigits.weaken ?_
    rintro _ rest ⟨ds, hds, hne, rfl⟩
    exact hdigits none nofun ds rest ⟨hds, hne, rfl⟩

/-- What may stand behind the digits of a number: an exponent, or nothing. -/
def PassedExponent (cs rest : List Char) : Prop :=
  ∃ o : Option Exponent, (∀ e ∈ o, e.WellFormed) ∧ cs = o.elim [] Exponent.text ++ rest

theorem leaves_givenExponent {x : Char} (hx : x = 'e' ∨ x = 'E') :
    skipNumber.exponent.Leaves (x :: cs) fun _ rest => PassedExponent (x :: cs) rest := by
  refine (leaves_skipExponent hx).weaken ?_
  rintro _ rest ⟨e, he, htext⟩
  exact ⟨some e, fun _ h => Option.some.inj h ▸ he, htext⟩

theorem leaves_exponentEnd : (do
      match ← peek with
      | some 'e' | some 'E' => skipNumber.exponent
      | _ => pure () : Reader Unit).Leaves cs fun _ rest => PassedExponent cs rest := by
  refine Leaves.peeked ?_
  split
  · obtain ⟨cs, rfl⟩ := List.head?_eq_some_iff.mp ‹_›
    exact leaves_givenExponent (.inl rfl)
  · obtain ⟨cs, rfl⟩ := List.head?_eq_some_iff.mp ‹_›
    exact leaves_givenExponent (.inr rfl)
  · exact leaves_pure ⟨none, nofun, rfl⟩

/-- Behind the whole part of a number there is its tail. -/
def PassedTail (cs rest : List Char) : Prop :=
  ∀ whole, Digits whole → whole ≠ [] → (whole.head? = some '0' → whole = ['0']) →
    ∃ l : Literal, l.WellFormed ∧ whole ++ cs = l.whole ++ l.tail ++ rest

theorem PassedExponent.behind {fraction : Option (List Char)} {rest : List Char}
    (h : PassedExponent cs rest) (hfraction : ∀ ds ∈ fraction, ds ≠ [] ∧ Digits ds) :
    PassedTail (fraction.elim [] ('.' :: ·) ++ cs) rest := by
  obtain ⟨exponent, hexponent, rfl⟩ := h
  intro whole hwhole hne hleading
  refine ⟨⟨false, whole, fraction, exponent⟩, ⟨hwhole, hne, hleading, hfraction, hexponent⟩, ?_⟩
  show whole ++ _ = whole ++ (_ ++ _) ++ rest
  rw [List.append_assoc, List.append_assoc]

theorem PassedExponent.tail {rest : List Char} (h : PassedExponent cs rest) : PassedTail cs rest :=
  @PassedExponent.behind cs none rest h nofun

theorem leaves_skipTail : skipNumber.tail.Leaves cs fun _ rest => PassedTail cs rest := by
  refine Leaves.peeked ?_
  split
  · obtain ⟨cs, rfl⟩ := List.head?_eq_some_iff.mp ‹_›
    refine Leaves.skipped (Leaves.bounded fun fuel => (leaves_skipDigits fuel 0).bind ?_)
    rintro n after ⟨ds, hds, rfl, rfl⟩
    split
    · exact (leaves_failNext (Q := fun _ _ => False) _).bind fun _ _ h => h.elim
    · rename_i hcount
      have hsome : ds ≠ [] := by
        rintro rfl
        exact hcount rfl
      have hfraction : ∀ part ∈ some ds, part ≠ [] ∧ Digits part :=
        fun _ h => Option.some.inj h ▸ ⟨hsome, hds⟩
      exact leaves_exponentEnd.weaken fun _ rest h => h.behind hfraction
  · obtain ⟨cs, rfl⟩ := List.head?_eq_some_iff.mp ‹_›
    exact (leaves_givenExponent (.inl rfl)).weaken fun _ rest h => h.tail
  · obtain ⟨cs, rfl⟩ := List.head?_eq_some_iff.mp ‹_›
    exact (leaves_givenExponent (.inr rfl)).weaken fun _ rest h => h.tail
  · exact leaves_pure (PassedExponent.tail ⟨none, nofun, rfl⟩)

/-- The characters of a number behind its sign, if there is one. -/
theorem leaves_skipNumber : skipNumber.Leaves cs fun _ rest =>
    ∃ l : Literal, l.WellFormed ∧ cs = l.whole ++ l.tail ++ rest := by
  cases cs with
  | nil => exact Leaves.tookNone (leaves_fail _)
  | cons x cs =>
    refine Leaves.took ?_
    have hzero : skipNumber.tail.Leaves cs fun _ rest =>
        ∃ l : Literal, l.WellFormed ∧ '0' :: cs = l.whole ++ l.tail ++ rest :=
      leaves_skipTail.weaken fun _ rest h =>
        h ['0'] (digits_cons rfl nofun) (List.cons_ne_nil _ _) fun _ => rfl
    split
    · -- no digit may follow a zero
      cases ‹some x = some '0'›
      refine Leaves.peeked ?_
      split
      · split
        · exact leaves_failNext _
        · exact hzero
      · exact hzero
    · rename_i y hother hy
      cases hy
      split
      · rename_i hx
        refine Leaves.bounded fun fuel => (leaves_skipDigits fuel 0).bind ?_
        rintro n after ⟨ds, hds, -, rfl⟩
        have hleading : (x :: ds).head? = some '0' → x :: ds = ['0'] :=
          fun h => absurd (Option.some.inj h) hother
        exact leaves_skipTail.weaken fun _ rest h =>
          h (x :: ds) (digits_cons hx hds) (List.cons_ne_nil _ _) hleading
      · exact leaves_fail _
    · cases ‹some x = none›

/-! ## Values -/

/-- There are blanks, the text of a value, and a rest. -/
def PassedValue (cs rest : List Char) : Prop :=
  ∃ a t ds, Blanks a ∧ Spells t ds ∧ cs = a ++ (ds ++ rest)

/-- There are items of an array, one at least, then its end, and a rest. -/
def PassedItems (cs rest : List Char) : Prop :=
  ∃ t ts ds, SpellsItems true (t :: ts) ds ∧ cs = ds ++ ']' :: rest

def PassedMembers (cs rest : List Char) : Prop :=
  ∃ m ms ds, SpellsMembers true (m :: ms) ds ∧ cs = ds ++ '\x7d' :: rest

theorem leaves_colon : colon.Leaves cs fun _ rest => ∃ b, Blanks b ∧ cs = b ++ ':' :: rest := by
  refine Leaves.token ?_
  rintro b rest hb - rfl
  split
  · obtain ⟨rest, rfl⟩ := List.head?_eq_some_iff.mp ‹_›
    exact (leaves_skip _).weaken fun _ _ hrest => ⟨b, hb, hrest ▸ rfl⟩
  · exact leaves_failNext _
  · exact leaves_failNext _

theorem leaves_skipItems_succ {fuel : Nat}
    (hvalue : ∀ cs, (skipValueWith fuel).Leaves cs fun _ rest => PassedValue cs rest)
    (hitems : ∀ cs, (skipItemsWith fuel).Leaves cs fun _ rest => PassedItems cs rest) :
    (skipItemsWith (fuel + 1)).Leaves cs fun _ rest => PassedItems cs rest := by
  refine (hvalue cs).bind ?_
  rintro _ after ⟨a, t, ds, ha, ht, rfl⟩
  refine Leaves.token ?_
  rintro b rest hb - rfl
  split
  · obtain ⟨rest, rfl⟩ := List.head?_eq_some_iff.mp ‹_›
    refine Leaves.skipped ((hitems rest).weaken ?_)
    rintro _ left ⟨u, us, es, hus, rfl⟩
    have hmore : SpellsItems false (u :: us) (b ++ [','] ++ es) := hus.behind (.next hb nofun)
    exact ⟨t, u :: us, _, .cons (.first ha) ht hmore, by simp⟩
  · obtain ⟨rest, rfl⟩ := List.head?_eq_some_iff.mp ‹_›
    refine (leaves_skip _).weaken ?_
    rintro _ _ rfl
    exact ⟨t, [], _, .cons (.first ha) ht (.nil hb), by simp⟩
  · exact leaves_failNext _
  · exact leaves_failNext _

theorem leaves_skipMembers_succ {fuel : Nat}
    (hvalue : ∀ cs, (skipValueWith fuel).Leaves cs fun _ rest => PassedValue cs rest)
    (hmembers : ∀ cs, (skipMembersWith fuel).Leaves cs fun _ rest => PassedMembers cs rest) :
    (skipMembersWith (fuel + 1)).Leaves cs fun _ rest => PassedMembers cs rest := by
  refine Leaves.token ?_
  rintro a rest ha - rfl
  split
  · obtain ⟨rest, rfl⟩ := List.head?_eq_some_iff.mp ‹_›
    refine Leaves.skipped (Leaves.bounded fun bound => (leaves_skipStringRest bound).bind ?_)
    rintro _ after ⟨pieces, hwf, rfl⟩
    refine leaves_colon.bind ?_
    rintro _ after ⟨b, hb, rfl⟩
    refine (hvalue after).bind ?_
    rintro _ after ⟨a', t, ds, ha', ht, rfl⟩
    have hm : SpellsMember (pieces, t) (quoted pieces ++ (b ++ ':' :: (a' ++ ds))) :=
      .intro hwf hb ha' ht
    -- a comma, behind which there is another member, or the end
    refine Leaves.token ?_
    rintro b' rest hb' - rfl
    split
    · obtain ⟨rest, rfl⟩ := List.head?_eq_some_iff.mp ‹_›
      refine Leaves.skipped ((hmembers rest).weaken ?_)
      rintro _ left ⟨m, ms, es, hms, rfl⟩
      have hmore : SpellsMembers false (m :: ms) (b' ++ [','] ++ es) := hms.behind (.next hb' nofun)
      exact ⟨_, m :: ms, _, .cons (.first ha) hm hmore, by simp [quoted]⟩
    · obtain ⟨rest, rfl⟩ := List.head?_eq_some_iff.mp ‹_›
      refine (leaves_skip _).weaken ?_
      rintro _ _ rfl
      exact ⟨_, [], _, .cons (.first ha) hm (.nil hb'), by simp [quoted]⟩
    · exact leaves_failNext _
    · exact leaves_failNext _
  · exact (leaves_failNext (Q := fun _ _ => False) _).bind fun _ _ h => h.elim
  · exact (leaves_failNext (Q := fun _ _ => False) _).bind fun _ _ h => h.elim

theorem leaves_skipValue_succ {fuel : Nat}
    (hitems : ∀ cs, (skipItemsWith fuel).Leaves cs fun _ rest => PassedItems cs rest)
    (hmembers : ∀ cs, (skipMembersWith fuel).Leaves cs fun _ rest => PassedMembers cs rest) :
    (skipValueWith (fuel + 1)).Leaves cs fun _ rest => PassedValue cs rest := by
  refine Leaves.token ?_
  rintro a rest ha - rfl
  -- by the first character: the three words, a sign, a string, an array, an object, a digit
  split
  · exact leaves_failNext _
  · obtain ⟨rest, rfl⟩ := List.head?_eq_some_iff.mp ‹_›
    refine Leaves.skipped ((leaves_word _).weaken ?_)
    rintro _ rest rfl
    exact ⟨a, _, _, ha, .null, rfl⟩
  · obtain ⟨rest, rfl⟩ := List.head?_eq_some_iff.mp ‹_›
    refine Leaves.skipped ((leaves_word _).weaken ?_)
    rintro _ rest rfl
    exact ⟨a, _, _, ha, .true, rfl⟩
  · obtain ⟨rest, rfl⟩ := List.head?_eq_some_iff.mp ‹_›
    refine Leaves.skipped ((leaves_word _).weaken ?_)
    rintro _ rest rfl
    exact ⟨a, _, _, ha, .false, rfl⟩
  · obtain ⟨rest, rfl⟩ := List.head?_eq_some_iff.mp ‹_›
    refine Leaves.skipped (leaves_skipNumber.weaken ?_)
    rintro _ rest ⟨l, hl, rfl⟩
    exact ⟨a, _, _, ha, .number (hl.signed true), by simp [Literal.text, Literal.tail]⟩
  · obtain ⟨rest, rfl⟩ := List.head?_eq_some_iff.mp ‹_›
    refine Leaves.skipped (Leaves.bounded fun bound => (leaves_skipStringRest bound).weaken ?_)
    rintro _ rest ⟨pieces, hwf, rfl⟩
    exact ⟨a, _, _, ha, .string hwf, by simp [quoted]⟩
  · obtain ⟨rest, rfl⟩ := List.head?_eq_some_iff.mp ‹_›
    refine Leaves.skipped (Leaves.token ?_)
    rintro b rest hb - rfl
    split
    · obtain ⟨rest, rfl⟩ := List.head?_eq_some_iff.mp ‹_›
      refine (leaves_skip _).weaken ?_
      rintro _ _ rfl
      exact ⟨a, _, _, ha, .array (.nil hb), by simp⟩
    · refine (hitems rest).weaken ?_
      rintro _ left ⟨t, ts, ds, hts, rfl⟩
      exact ⟨a, _, _, ha, .array (hts.behind (.first hb)), by simp⟩
    · exact leaves_failNext _
  · obtain ⟨rest, rfl⟩ := List.head?_eq_some_iff.mp ‹_›
    refine Leaves.skipped (Leaves.token ?_)
    rintro b rest hb - rfl
    split
    · obtain ⟨rest, rfl⟩ := List.head?_eq_some_iff.mp ‹_›
      refine (leaves_skip _).weaken ?_
      rintro _ _ rfl
      exact ⟨a, _, _, ha, .object (.nil hb), by simp⟩
    · refine (hmembers rest).weaken ?_
      rintro _ left ⟨m, ms, ds, hms, rfl⟩
      exact ⟨a, _, _, ha, .object (hms.behind (.first hb)), by simp⟩
    · exact leaves_failNext _
  · split
    · refine leaves_skipNumber.weaken ?_
      rintro _ left ⟨l, hl, rfl⟩
      exact ⟨a, _, _, ha, .number (hl.signed false), by simp [Literal.text, Literal.tail]⟩
    · exact leaves_failNext _

theorem leaves_skipAll (fuel : Nat) :
    (∀ cs, (skipValueWith fuel).Leaves cs fun _ rest => PassedValue cs rest) ∧
      (∀ cs, (skipItemsWith fuel).Leaves cs fun _ rest => PassedItems cs rest) ∧
      ∀ cs, (skipMembersWith fuel).Leaves cs fun _ rest => PassedMembers cs rest := by
  induction fuel with
  | zero => exact ⟨fun _ => leaves_fail _, fun _ => leaves_fail _, fun _ => leaves_fail _⟩
  | succ fuel ih =>
    obtain ⟨hvalue, hitems, hmembers⟩ := ih
    exact ⟨fun _ => leaves_skipValue_succ hitems hmembers,
      fun _ => leaves_skipItems_succ hvalue hitems,
      fun _ => leaves_skipMembers_succ hvalue hmembers⟩

/-- **What is passed over as a value is the text of a value**, with blanks in front of it. -/
theorem leaves_skipValue : skipValue.Leaves cs fun _ rest => PassedValue cs rest :=
  Leaves.bounded fun fuel => (leaves_skipAll fuel).1 cs

/-! ## Raw texts -/

/-- **A raw text is the text of a value, and nothing around it.** -/
theorem gives_rawText {depth : Nat} :
    rawValue.Gives depth fun s => ∃ t, Spells t s.toList := by
  intro c s c' hc hrun
  refine ⟨(gives_rawValue c s c' hc hrun).1, ?_⟩
  obtain ⟨b, hb, hnoblank, htext⟩ := exists_blanks c.rest c rfl
  unfold rawValue at hrun
  dsimp only at hrun
  split at hrun
  · rename_i hskip
    cases hrun
    obtain ⟨a, t, ds, ha, ht, hpassed⟩ := leaves_skipValue _ () _ rfl hskip
    -- the blanks in front of the value are gone already
    have hnone : a = [] := by
      cases a with
      | nil => rfl
      | cons x a =>
        rw [hpassed] at hnoblank
        have hx : isBlank x = false := hnoblank x rfl
        exact absurd (ha x (.head a)) (hx ▸ Bool.false_ne_true)
    subst hnone
    refine ⟨t, ?_⟩
    rw [hpassed, List.nil_append, List.length_append, Nat.add_sub_cancel, List.take_left,
      String.toList_ofList]
    exact ht
  · cases hrun

end Reader

end ScriptedActions.Json
