import ScriptedActions.Proofs.JsonNumbers

/-!
# What comes of the text of a value

A tree has at most one value, and none if it is nested too deep, has a number that is too large or
a string that stands for no characters: `Tree.value?`. The reader of values gives just this value on
every text that spells the tree, and stops if there is none (`Reader.yields_value`). So the outcome
depends on the tree alone: not on its blanks, nor on what stands behind it.

The reader that passes a value over asks less: it passes every tree (`Reader.accepts_skipValue`),
and so the raw text of a value is the text that spells it.

Both readers call themselves inside arrays and objects, with one step of fuel less; so values, items
and members are dealt with together, by induction on the fuel, which is enough as long as there is
more of it than twice the characters.
-/

set_option autoImplicit false

namespace ScriptedActions.Json

mutual

/-- The value of a tree in which `depth` arrays and objects may be opened inside each other. -/
def Tree.value? : Tree → Nat → Option Json
  | .null, _ => some .null
  | .bool b, _ => some (.bool b)
  | .number l, _ => l.value?
  | .string pieces, _ => (unescape pieces).map fun cs => .string (String.ofList cs)
  | .array _, 0 => none
  | .array ts, depth + 1 => (itemValues? ts depth).map .array
  | .object _, 0 => none
  | .object ms, depth + 1 => (memberValues? ms depth).map fun es => .object (Table.ofList es)

/-- The values of items, one by one. -/
def itemValues? : List Tree → Nat → Option (List Json)
  | [], _ => some []
  | t :: ts, depth => (t.value? depth).bind fun v => (itemValues? ts depth).map (v :: ·)

/-- The names and values of members, one by one. -/
def memberValues? : List (List Piece × Tree) → Nat → Option (List (String × Json))
  | [], _ => some []
  | (pieces, t) :: ms, depth => (unescape pieces).bind fun cs => (t.value? depth).bind fun v =>
    (memberValues? ms depth).map ((String.ofList cs, v) :: ·)

end

namespace Reader

variable {α β : Type} {cs ds tail : List Char} {depth : Nat} {o : Option α}

/-! ## Inside of arrays and objects -/

theorem yields_enter_zero {f : Unit → Reader β} : (enter >>= f).Yields cs tail 0 none := by
  intro c _ _ hdepth
  have hstop : enter c = .error ⟨.tooDeep, some c.nextPlace⟩ c := by
    rw [enter, if_pos (by omega)]
  exact ⟨⟨.tooDeep, some c.nextPlace⟩, c, by rw [run_bind, hstop]⟩

theorem run_entered {inside : Reader α} {close : Reader Unit} (f : α → β) {c : Cursor}
    (h : 1 < c.depth) :
    (do enter; let a ← inside; close; leave; pure (f a) : Reader β) c =
      match (do let a ← inside; close; pure a : Reader α)
        { c.advance with depth := c.depth - 1 } with
      | .ok a c' => .ok (f a) { c' with depth := c'.depth + 1 }
      | .error e c' => .error e c' := by
  have henter : enter c = .ok () { c.advance with depth := c.depth - 1 } := by
    rw [enter, if_neg (Nat.not_le.mpr h)]
  simp only [run_bind, henter]
  cases inside { c.advance with depth := c.depth - 1 } with
  | error e c₁ => rfl
  | ok a c₁ =>
    dsimp only
    cases close c₁ <;> rfl

/-- An array or an object needs one level more than what is inside of it. -/
theorem Yields.entered {inside : Reader α} {close : Reader Unit} (f : α → β) (x : Char)
    (h : (do let a ← inside; close; pure a : Reader α).Yields cs tail depth o) :
    (do enter; let a ← inside; close; leave; pure (f a) : Reader β).Yields (x :: cs) tail
      (depth + 1) (o.map f) := by
  intro c hc hbound hdepth
  obtain ⟨hrest, hsame, -⟩ : c.advance.rest = cs ++ tail ∧ _ := rest_of_advance hc
  have hless : 2 * c.advance.rest.length < c.advance.bound := by
    rw [hc, List.cons_append, List.length_cons] at hbound
    rw [hrest, hsame]
    omega
  have hinside := h { c.advance with depth := c.depth - 1 } hrest hless
    (show c.depth - 1 = depth + 1 by omega)
  rw [run_entered f (by omega)]
  cases o with
  | none =>
    obtain ⟨e, c', hrun⟩ := hinside
    exact ⟨e, c', by rw [hrun]⟩
  | some a =>
    obtain ⟨c', hrun, hend, hkept, hdepth'⟩ := hinside
    refine ⟨{ c' with depth := c'.depth + 1 }, by rw [hrun], hend, hkept.trans hsame, ?_⟩
    have : c'.depth = c.depth - 1 := hdepth'
    show c'.depth + 1 = c.depth
    omega

theorem Yields.closed {inside : Reader α} {close : Reader Unit} {y : Char}
    (hinside : inside.Yields cs (y :: tail) depth o) (hclose : close.Accepts [y] tail depth ()) :
    (do let a ← inside; close; pure a : Reader α).Yields (cs ++ [y]) tail depth o := by
  have h : (do let a ← inside; close; pure a : Reader α).Yields (cs ++ [y]) tail depth
      (o.bind some) :=
    Yields.bind hinside fun a _ => Accepts.yields (hclose.last accepts_pure)
  rwa [Option.bind_fun_some] at h

/-! ## Values -/

/-- Values are read with the blanks in front of them. -/
def YieldsValues (fuel : Nat) : Prop :=
  ∀ (t : Tree) (a cs tail : List Char) (depth : Nat), Spells t cs → Blanks a → EndsValue tail →
    2 * cs.length ≤ fuel → (valueWith fuel).Yields (a ++ cs) tail depth (t.value? depth)

/-- Items are read up to the end of their array. -/
def YieldsItems (fuel : Nat) : Prop :=
  ∀ (first : Bool) (ts : List Tree) (ds tail : List Char) (depth : Nat) (done : List Json),
    SpellsItems first ts ds → 2 * ds.length < fuel →
      (itemsWith fuel first done).Yields ds (']' :: tail) depth
        ((itemValues? ts depth).map (done.reverse ++ ·))

/-- Members are read up to the end of their object. -/
def YieldsMembers (fuel : Nat) : Prop :=
  ∀ (first : Bool) (ms : List (List Piece × Tree)) (ds tail : List Char) (depth : Nat)
    (done : Table Json), SpellsMembers first ms ds → 2 * ds.length < fuel →
      (membersWith fuel first done).Yields ds ('\x7d' :: tail) depth
        ((memberValues? ms depth).map (·.foldl (fun t e => t.insert e.1 e.2) done))

theorem yieldsItems_succ {fuel : Nat} (hvalues : YieldsValues fuel) (hitems : YieldsItems fuel) :
    YieldsItems (fuel + 1) := by
  intro first ts ds tail depth done h hfuel
  cases h with
  | nil hb =>
    have hdone : (itemValues? [] depth).map (done.reverse ++ ·) = some done.reverse :=
      congrArg some (List.append_nil _)
    rw [hdone]
    exact Accepts.yields ((accepts_itemsEnd first hb).last accepts_pure)
  | @cons _ a cs ds t ts hsep ht hrest =>
    obtain ⟨x, rest, rfl, hx, hend⟩ := head_of_spells ht
    simp only [List.length_append, List.length_cons] at hfuel
    have hvalue := hvalues t [] (x :: rest) (ds ++ ']' :: tail) depth ht nofun
      (endsValue_items hrest (endsValue_bracket _)) (by rw [List.length_cons]; omega)
    have hsplit : (itemValues? (t :: ts) depth).map (done.reverse ++ ·) =
        (t.value? depth).bind fun v => (itemValues? ts depth).map ((v :: done).reverse ++ ·) := by
      rw [itemValues?, Option.map_bind]
      refine Option.bind_congr fun v _ => ?_
      simp only [Option.map_map, Function.comp_def, List.reverse_cons, List.append_assoc,
        List.singleton_append]
    rw [hsplit]
    refine Yields.past (accepts_nextItem hsep hx hend) ?_
    exact Yields.bind hvalue fun v _ => hitems false ts ds tail depth (v :: done) hrest (by omega)

theorem yieldsMembers_succ {fuel : Nat} (hvalues : YieldsValues fuel)
    (hmembers : YieldsMembers fuel) : YieldsMembers (fuel + 1) := by
  intro first ms ds tail depth done h hfuel
  cases h with
  | nil hb => exact Accepts.yields ((accepts_membersEnd first hb).last accepts_pure)
  | @cons _ a cs ds m ms hsep hm hrest =>
    obtain @⟨b, a', cs, pieces, t, hwf, hb, ha, ht⟩ := hm
    have htext : quoted pieces ++ (b ++ ':' :: (a' ++ cs)) ++ ds =
        quoted pieces ++ (b ++ [':'] ++ (a' ++ cs ++ ds)) := by simp
    simp only [List.length_append, List.length_cons] at hfuel
    have hvalue := hvalues t a' cs (ds ++ '\x7d' :: tail) depth ht ha
      (endsValue_members hrest (endsValue_brace _)) (by omega)
    have hsplit : (memberValues? ((pieces, t) :: ms) depth).map
          (·.foldl (fun t e => t.insert e.1 e.2) done) =
        ((unescape pieces).map String.ofList).bind fun name => (t.value? depth).bind fun v =>
          (memberValues? ms depth).map
            (·.foldl (fun t e => t.insert e.1 e.2) (done.insert name v)) := by
      rw [memberValues?, Option.map_bind, Option.bind_map]
      refine Option.bind_congr fun xs _ => ?_
      simp only [Function.comp_def, Option.map_bind, Option.map_map, List.foldl_cons]
    rw [hsplit]
    refine Yields.past (accepts_nextMember hsep) ?_
    rw [if_pos rfl, htext]
    refine Yields.bind (yields_memberName hwf) fun name _ => ?_
    refine Yields.past (accepts_blankColon hb) (Yields.bind hvalue fun v _ => ?_)
    exact hmembers false ms ds tail depth (done.insert name v) hrest (by omega)

/-- A digit makes a value a number without a sign. -/
theorem yields_valueWith_digit {fuel : Nat} {a : List Char} (ha : Blanks a) {x : Char}
    (hx : isDigit x = true) {p : Option Json} (h : (number true).Yields (x :: cs) tail depth p) :
    (valueWith (fuel + 1)).Yields (a ++ x :: cs) tail depth p := by
  refine Yields.past (accepts_blanks ha (noBlank_cons (isBlank_of_isDigit hx))) ?_
  rw [List.cons_append, List.head?_cons]
  split
  · cases ‹some x = none›
  · exact absurd (Option.some.inj ‹_›) (ne_of_isDigit hx rfl)
  · exact absurd (Option.some.inj ‹_›) (ne_of_isDigit hx rfl)
  · exact absurd (Option.some.inj ‹_›) (ne_of_isDigit hx rfl)
  · exact absurd (Option.some.inj ‹_›) (ne_of_isDigit hx rfl)
  · exact absurd (Option.some.inj ‹_›) (ne_of_isDigit hx rfl)
  · exact absurd (Option.some.inj ‹_›) (ne_of_isDigit hx rfl)
  · exact absurd (Option.some.inj ‹_›) (ne_of_isDigit hx rfl)
  · cases ‹some x = some _›
    rw [if_pos hx]
    exact h

theorem yieldsValues_succ {fuel : Nat} (hitems : YieldsItems fuel) (hmembers : YieldsMembers fuel) :
    YieldsValues (fuel + 1) := by
  intro t a cs tail depth h ha ht hfuel
  -- the first character says which kind of value it is
  have hpeek {x : Char} {rest : List Char} (hx : isBlank x = false) :
      peekToken.Accepts a (x :: rest ++ tail) depth (x :: rest ++ tail).head? :=
    accepts_blanks ha (noBlank_cons hx)
  cases h with
  | null =>
    refine Yields.past (hpeek rfl) (Yields.cons (accepts_skip 'n') (Accepts.yields (a := null) ?_))
    exact (accepts_word ['u', 'l', 'l']).last accepts_pure
  | true =>
    refine Yields.past (hpeek rfl)
      (Yields.cons (accepts_skip 't') (Accepts.yields (a := bool true) ?_))
    exact (accepts_word ['r', 'u', 'e']).last accepts_pure
  | false =>
    refine Yields.past (hpeek rfl)
      (Yields.cons (accepts_skip 'f') (Accepts.yields (a := bool false) ?_))
    exact (accepts_word ['a', 'l', 's', 'e']).last accepts_pure
  | @string pieces hwf =>
    refine Yields.past (hpeek rfl) (Yields.cons (accepts_skip '"') ?_)
    have hstring : (.string <$> string : Reader Json).Yields (pieces.flatMap Piece.text ++ ['"'])
        tail depth (((unescape pieces).map String.ofList).map .string) :=
      (yields_string hwf).map Json.string
    rwa [Option.map_map] at hstring
  | @array ts ds hds =>
    refine Yields.past (hpeek rfl) ?_
    simp only [List.length_cons, List.length_append, List.length_nil] at hfuel
    cases depth with
    | zero => exact yields_enter_zero
    | succ depth =>
      have hin := hitems true ts ds tail depth [] hds (by omega)
      have hsame : (itemValues? ts depth).map ([].reverse ++ ·) = itemValues? ts depth :=
        Option.map_id'
      rw [hsame] at hin
      exact (hin.closed accepts_endList).entered Json.array '['
  | @object ms ds hds =>
    refine Yields.past (hpeek rfl) ?_
    simp only [List.length_cons, List.length_append, List.length_nil] at hfuel
    cases depth with
    | zero => exact yields_enter_zero
    | succ depth =>
      have hin := hmembers true ms ds tail depth [] hds (by omega)
      have hall := (hin.closed accepts_endObject).entered Json.object '\x7b'
      rwa [Option.map_map] at hall
  | @number l hl =>
    have hnumber : (number (!l.negative)).Yields (l.whole ++ l.tail) tail depth l.value? :=
      yields_number hl ht
    unfold Literal.text
    cases hnegative : l.negative with
    | true =>
      rw [hnegative] at hnumber
      refine Yields.past (accepts_blanks ha (noBlank_cons rfl)) ?_
      exact Yields.cons (accepts_skip '-') hnumber
    | false =>
      obtain ⟨x, ds, hwhole⟩ := List.exists_cons_of_ne_nil hl.nonempty
      have hdigit : isDigit x = true := hl.whole x (hwhole ▸ List.mem_cons_self)
      rw [hnegative, hwhole] at hnumber
      rw [hwhole]
      exact yields_valueWith_digit ha hdigit hnumber

/-- Values, items and members, by induction on the fuel. -/
theorem yields_all (fuel : Nat) : YieldsValues fuel ∧ YieldsItems fuel ∧ YieldsMembers fuel := by
  induction fuel with
  | zero =>
    refine ⟨fun t a cs tail depth h _ _ hfuel => ?_, fun _ _ _ _ _ _ _ hfuel => ?_,
      fun _ _ _ _ _ _ _ hfuel => ?_⟩
    · -- a value has one character at least
      obtain ⟨x, rest, rfl, -⟩ := head_of_spells h
      simp at hfuel
    · exact absurd hfuel (Nat.not_lt_zero _)
    · exact absurd hfuel (Nat.not_lt_zero _)
  | succ fuel ih =>
    obtain ⟨hvalues, hitems, hmembers⟩ := ih
    exact ⟨yieldsValues_succ hitems hmembers, yieldsItems_succ hvalues hitems,
      yieldsMembers_succ hvalues hmembers⟩

/-- **What comes of the text of a value** is the value of the tree that it spells, if that has
one. -/
theorem yields_value {t : Tree} (h : Spells t cs) {a : List Char} (ha : Blanks a)
    (ht : EndsValue tail) : value.Yields (a ++ cs) tail depth (t.value? depth) := by
  refine Yields.bounded ?_
  intro fuel hfuel
  simp only [List.length_append] at hfuel
  exact (yields_all fuel).1 t a cs tail depth h ha ht (by omega)

/-! ## Values that are passed over -/

/-- Values are passed with the blanks in front of them. -/
def PassesValues (fuel : Nat) : Prop :=
  ∀ (t : Tree) (a cs tail : List Char) (depth : Nat), Spells t cs → Blanks a → EndsValue tail →
    2 * cs.length ≤ fuel → (skipValueWith fuel).Accepts (a ++ cs) tail depth ()

/-- Other than for a reader of items there is one item at least, and the end is passed as well. -/
def PassesItems (fuel : Nat) : Prop :=
  ∀ (t : Tree) (ts : List Tree) (a cs ds tail : List Char) (depth : Nat), Blanks a → Spells t cs →
    SpellsItems false ts ds → 2 * (cs.length + ds.length) < fuel →
      (skipItemsWith fuel).Accepts (a ++ (cs ++ (ds ++ [']']))) tail depth ()

def PassesMembers (fuel : Nat) : Prop :=
  ∀ (m : List Piece × Tree) (ms : List (List Piece × Tree)) (a cs ds tail : List Char)
    (depth : Nat), Blanks a → SpellsMember m cs → SpellsMembers false ms ds →
      2 * (cs.length + ds.length) < fuel →
        (skipMembersWith fuel).Accepts (a ++ (cs ++ (ds ++ ['\x7d']))) tail depth ()

theorem passesItems_succ {fuel : Nat} (hvalues : PassesValues fuel) (hitems : PassesItems fuel) :
    PassesItems (fuel + 1) := by
  intro t ts a cs ds tail depth ha ht hrest hfuel
  have hends : EndsValue (ds ++ [']'] ++ tail) := by
    rw [List.append_assoc]
    exact endsValue_items hrest (endsValue_bracket _)
  rw [← List.append_assoc]
  refine Accepts.bind (hvalues t a cs (ds ++ [']'] ++ tail) depth ht ha hends (by omega)) ?_
  cases hrest with
  | nil hb => exact Accepts.bind (accepts_blanks hb (noBlank_cons rfl)) (accepts_skip ']')
  | @cons _ a' cs' ds' u us hsep hu hus =>
    cases hsep with
    | @next b a' hb ha' =>
      simp only [List.length_append, List.length_cons] at hfuel
      have htext : b ++ ',' :: a' ++ (cs' ++ ds') ++ [']'] =
          b ++ ',' :: (a' ++ (cs' ++ (ds' ++ [']']))) := by simp
      rw [htext]
      refine Accepts.bind (accepts_blanks hb (noBlank_cons rfl)) ?_
      refine Accepts.cons (accepts_skip ',') ?_
      exact hitems u us a' cs' ds' tail depth ha' hu hus (by omega)

theorem passesMembers_succ {fuel : Nat} (hvalues : PassesValues fuel)
    (hmembers : PassesMembers fuel) : PassesMembers (fuel + 1) := by
  intro m ms a cs ds tail depth ha hm hrest hfuel
  obtain @⟨b, a', vs, pieces, t, hwf, hb, ha', ht⟩ := hm
  simp only [List.length_append, List.length_cons] at hfuel
  have htext : a ++ (quoted pieces ++ (b ++ ':' :: (a' ++ vs)) ++ (ds ++ ['\x7d'])) =
      a ++ '"' :: ((pieces.flatMap Piece.text ++ ['"']) ++
        (b ++ [':'] ++ (a' ++ vs ++ (ds ++ ['\x7d'])))) := by simp [quoted]
  have hends : EndsValue (ds ++ ['\x7d'] ++ tail) := by
    rw [List.append_assoc]
    exact endsValue_members hrest (endsValue_brace _)
  rw [htext]
  refine Accepts.bind (accepts_blanks ha (noBlank_cons rfl)) (Accepts.cons (accepts_skip '"') ?_)
  rw [← bind_assoc]
  refine Accepts.bind (accepts_passString hwf) (Accepts.bind (accepts_blankColon hb) ?_)
  refine Accepts.bind (hvalues t a' vs (ds ++ ['\x7d'] ++ tail) depth ht ha' hends (by omega)) ?_
  cases hrest with
  | nil hb => exact Accepts.bind (accepts_blanks hb (noBlank_cons rfl)) (accepts_skip '\x7d')
  | @cons _ a₂ cs₂ ds₂ m₂ ms₂ hsep hm₂ hms₂ =>
    cases hsep with
    | @next b₂ a₂ hb₂ ha₂ =>
      simp only [List.length_append, List.length_cons] at hfuel
      have htext : b₂ ++ ',' :: a₂ ++ (cs₂ ++ ds₂) ++ ['\x7d'] =
          b₂ ++ ',' :: (a₂ ++ (cs₂ ++ (ds₂ ++ ['\x7d']))) := by simp
      rw [htext]
      refine Accepts.bind (accepts_blanks hb₂ (noBlank_cons rfl)) ?_
      refine Accepts.cons (accepts_skip ',') ?_
      exact hmembers m₂ ms₂ a₂ cs₂ ds₂ tail depth ha₂ hm₂ hms₂ (by omega)

theorem accepts_skipDigit {fuel : Nat} {a : List Char} (ha : Blanks a) {x : Char}
    (hx : isDigit x = true) (h : skipNumber.Accepts (x :: cs) tail depth ()) :
    (skipValueWith (fuel + 1)).Accepts (a ++ x :: cs) tail depth () := by
  refine Accepts.bind (accepts_blanks ha (noBlank_cons (isBlank_of_isDigit hx))) ?_
  rw [List.cons_append, List.head?_cons]
  split
  · cases ‹some x = none›
  · exact absurd (Option.some.inj ‹_›) (ne_of_isDigit hx rfl)
  · exact absurd (Option.some.inj ‹_›) (ne_of_isDigit hx rfl)
  · exact absurd (Option.some.inj ‹_›) (ne_of_isDigit hx rfl)
  · exact absurd (Option.some.inj ‹_›) (ne_of_isDigit hx rfl)
  · exact absurd (Option.some.inj ‹_›) (ne_of_isDigit hx rfl)
  · exact absurd (Option.some.inj ‹_›) (ne_of_isDigit hx rfl)
  · exact absurd (Option.some.inj ‹_›) (ne_of_isDigit hx rfl)
  · cases ‹some x = some _›
    rw [if_pos hx]
    exact h

theorem passesValues_succ {fuel : Nat} (hitems : PassesItems fuel) (hmembers : PassesMembers fuel) :
    PassesValues (fuel + 1) := by
  intro t a cs tail depth h ha ht hfuel
  have hpeek {x : Char} {rest : List Char} (hx : isBlank x = false) :
      peekToken.Accepts a (x :: rest ++ tail) depth (x :: rest ++ tail).head? :=
    accepts_blanks ha (noBlank_cons hx)
  cases h with
  | null => exact Accepts.bind (hpeek rfl) (Accepts.cons (accepts_skip 'n') (accepts_word _))
  | true => exact Accepts.bind (hpeek rfl) (Accepts.cons (accepts_skip 't') (accepts_word _))
  | false => exact Accepts.bind (hpeek rfl) (Accepts.cons (accepts_skip 'f') (accepts_word _))
  | @string pieces hwf =>
    exact Accepts.bind (hpeek rfl) (Accepts.cons (accepts_skip '"') (accepts_passString hwf))
  | @array ts ds hds =>
    refine Accepts.bind (hpeek rfl) (Accepts.cons (accepts_skip '[') ?_)
    simp only [List.length_cons, List.length_append, List.length_nil] at hfuel
    cases hds with
    | nil hb => exact Accepts.bind (accepts_blanks hb (noBlank_cons rfl)) (accepts_skip ']')
    | @cons _ a' cs' ds' u us hsep hu hus =>
      have ha' : Blanks a' := by cases hsep; assumption
      obtain ⟨x, rest, rfl, hx, hend⟩ := head_of_spells hu
      simp only [List.length_append] at hfuel
      -- the first item is looked at before it is passed
      have hin := hitems u us [] (x :: rest) ds' tail depth nofun hu hus (by omega)
      rw [List.append_assoc, List.append_assoc]
      refine Accepts.bind (accepts_blanks ha' (noBlank_cons hx)) ?_
      rw [List.cons_append, List.cons_append, List.head?_cons]
      split
      · exact absurd (Option.some.inj ‹_›) hend
      · exact hin
      · cases ‹some x = none›
  | @object ms ds hds =>
    refine Accepts.bind (hpeek rfl) (Accepts.cons (accepts_skip '\x7b') ?_)
    simp only [List.length_cons, List.length_append, List.length_nil] at hfuel
    cases hds with
    | nil hb => exact Accepts.bind (accepts_blanks hb (noBlank_cons rfl)) (accepts_skip '\x7d')
    | @cons _ a' cs' ds' m ms hsep hm hms =>
      have ha' : Blanks a' := by cases hsep; assumption
      simp only [List.length_append] at hfuel
      have hin := hmembers m ms [] cs' ds' tail depth nofun hm hms (by omega)
      rw [List.append_assoc, List.append_assoc]
      obtain @⟨b, a₂, vs, pieces, t, -, -, -, -⟩ := hm
      exact Accepts.bind (accepts_blanks ha' (noBlank_cons rfl)) hin
  | @number l hl =>
    have hnumber : skipNumber.Accepts (l.whole ++ l.tail) tail depth () :=
      accepts_skipLiteral hl ht.endsNumber
    unfold Literal.text
    cases l.negative with
    | true =>
      refine Accepts.bind (accepts_blanks ha (noBlank_cons rfl)) ?_
      exact Accepts.cons (accepts_skip '-') hnumber
    | false =>
      obtain ⟨x, ds, hwhole⟩ := List.exists_cons_of_ne_nil hl.nonempty
      have hdigit : isDigit x = true := hl.whole x (hwhole ▸ List.mem_cons_self)
      rw [hwhole] at hnumber ⊢
      exact accepts_skipDigit ha hdigit hnumber

theorem passes_all (fuel : Nat) : PassesValues fuel ∧ PassesItems fuel ∧ PassesMembers fuel := by
  induction fuel with
  | zero =>
    refine ⟨fun t a cs tail depth h _ _ hfuel => ?_, fun _ _ _ _ _ _ _ _ _ _ hfuel => ?_,
      fun _ _ _ _ _ _ _ _ _ _ hfuel => ?_⟩
    · obtain ⟨x, rest, rfl, -⟩ := head_of_spells h
      simp at hfuel
    · exact absurd hfuel (Nat.not_lt_zero _)
    · exact absurd hfuel (Nat.not_lt_zero _)
  | succ fuel ih =>
    obtain ⟨hvalues, hitems, hmembers⟩ := ih
    exact ⟨passesValues_succ hitems hmembers, passesItems_succ hvalues hitems,
      passesMembers_succ hvalues hmembers⟩

/-- **Every tree is passed over**, however deep it is and whatever its numbers and strings are. -/
theorem accepts_skipValue {t : Tree} (h : Spells t cs) {a : List Char} (ha : Blanks a)
    (ht : EndsValue tail) : skipValue.Accepts (a ++ cs) tail depth () := by
  refine Accepts.bounded ?_
  intro fuel hfuel
  simp only [List.length_append] at hfuel
  exact (passes_all fuel).1 t a cs tail depth h ha ht (by omega)

/-- The raw text of a value is the text that spells it, without the blanks around it. -/
theorem accepts_raw {t : Tree} (h : Spells t cs) {a : List Char} (ha : Blanks a)
    (ht : EndsValue tail) : rawValue.Accepts (a ++ cs) tail depth (String.ofList cs) := by
  intro c hc hbound hdepth
  obtain ⟨x, rest, hcs, hx, -⟩ := head_of_spells h
  have hstart : NoBlank (cs ++ tail) := by
    rw [hcs]
    exact noBlank_cons hx
  obtain ⟨hrest, hsame⟩ := rest_afterBlanks ha hstart c (hc.trans (List.append_assoc ..))
  have hkept := depth_afterBlanks c.rest c
  have hless : 2 * (afterBlanks c.rest c).rest.length < (afterBlanks c.rest c).bound := by
    rw [hc] at hbound
    rw [hrest, hsame]
    simp only [List.length_append] at hbound ⊢
    omega
  obtain ⟨c', hrun, hend, hbound', hdepth'⟩ :=
    accepts_skipValue (a := []) h nofun ht (afterBlanks c.rest c) hrest hless (hkept ▸ hdepth)
  refine ⟨c', ?_, hend, hbound'.trans hsame, hdepth'.trans hkept⟩
  unfold rawValue
  dsimp only
  rw [hrun]
  dsimp only
  rw [hrest, hend, List.length_append, Nat.add_sub_cancel, List.take_left]

end Reader

/-! ## Whole texts -/

mutual

/-- The value of a tree is one that it stands for. -/
theorem Spells.reads {t : Tree} {cs : List Char} {depth : Nat} {v : Json} :
    Spells t cs → t.value? depth = some v → Reads t v
  | .null, h => by
    cases h
    exact .null
  | .true, h => by
    cases h
    exact .bool _
  | .false, h => by
    cases h
    exact .bool _
  | .number hl, h => .number (Reader.reads_of_value? hl h)
  | .string _, h => by
    obtain ⟨xs, hxs, rfl⟩ := Option.map_eq_some_iff.mp h
    exact .string hxs
  | .array hts, h => by
    cases depth with
    | zero => cases h
    | succ depth =>
      obtain ⟨vs, hvs, rfl⟩ := Option.map_eq_some_iff.mp h
      exact .array (hts.reads hvs)
  | .object hms, h => by
    cases depth with
    | zero => cases h
    | succ depth =>
      obtain ⟨es, hes, rfl⟩ := Option.map_eq_some_iff.mp h
      exact .object (hms.reads hes)

theorem SpellsItems.reads {first : Bool} {ts : List Tree} {ds : List Char} {depth : Nat}
    {vs : List Json} : SpellsItems first ts ds → itemValues? ts depth = some vs → ReadsItems ts vs
  | .nil _, h => by
    cases h
    exact .nil
  | .cons _ ht hts, h => by
    obtain ⟨v, hv, hrest⟩ := Option.bind_eq_some_iff.mp h
    obtain ⟨ws, hws, rfl⟩ := Option.map_eq_some_iff.mp hrest
    exact .cons (ht.reads hv) (hts.reads hws)

theorem SpellsMember.reads {m : List Piece × Tree} {cs : List Char} {depth : Nat} {v : Json} :
    SpellsMember m cs → m.2.value? depth = some v → Reads m.2 v
  | .intro _ _ _ ht, h => ht.reads h

theorem SpellsMembers.reads {first : Bool} {ms : List (List Piece × Tree)} {ds : List Char}
    {depth : Nat} {es : List (String × Json)} :
    SpellsMembers first ms ds → memberValues? ms depth = some es → ReadsMembers ms es
  | .nil _, h => by
    cases h
    exact .nil
  | .cons _ hm hms, h => by
    obtain ⟨xs, hxs, hrest⟩ := Option.bind_eq_some_iff.mp h
    obtain ⟨v, hv, hrest⟩ := Option.bind_eq_some_iff.mp hrest
    obtain ⟨fs, hfs, rfl⟩ := Option.map_eq_some_iff.mp hrest
    exact .cons hxs (hm.reads hv) (hms.reads hfs)

end

/-- The value of a text is the value of the tree that it spells. -/
theorem toOption_parse {t : Tree} {text : String} (h : IsText t text) :
    (parse text).toOption = t.value? 127 := by
  obtain ⟨a, cs, b, ha, ht, hb, htext⟩ := h
  have hends : Reader.EndsValue (b ++ []) := Reader.endsValue_blanks hb Reader.endsValue_nil
  exact (Reader.yields_value ht ha hends).run hb (htext.trans (List.append_assoc ..).symm)

/-- **A text that spells a tree is read as a value that the tree stands for**, if it is read at
all. -/
theorem parse_reads {t : Tree} {text : String} {v : Json} (h : IsText t text)
    (hv : parse text = .ok v) : Reads t v := by
  have hvalue := toOption_parse h
  rw [hv] at hvalue
  obtain ⟨_, _, _, _, ht, _⟩ := h
  exact ht.reads hvalue.symm

end ScriptedActions.Json
