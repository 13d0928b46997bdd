import Mathlib.Data.Finset.Insert
import ScriptedActions.Json.Decoder
import ScriptedActions.Proofs.Decoded
import ScriptedActions.Proofs.JsonMeaning

/-!
# What comes of a decoder

What a decoder makes of the text of a value (`Decoder.Makes`) is told here decoder by decoder, for
all texts that the grammar spells: something, or nothing if the value is refused.

A record is filled member by member. What a member does to a record is an `Entry`: the record is
refused, or the member is passed over, or it is stored as a field. So what comes of the members of
an object is what comes of their entries (`fill`), of which all that are needed must have been there
(`complete`).

An array may stand for a record. Its items are the fields in their order, and those at its end may
be missing if they are not needed.
-/

set_option autoImplicit false

namespace ScriptedActions.Json

open Reader (Accepts Yields Fails EndsValue isBlank isDigit)

variable {α β : Type} {cs ds tail : List Char} {depth : Nat} {o : Option α} {t : Tree}

/-! ## Readers -/

namespace Reader

theorem Yields.located {r : Reader α} (h : r.Yields cs tail depth o) :
    (Reader.located r).Yields cs tail depth o := by
  intro c hc hbound hdepth
  have hread := h c hc hbound hdepth
  unfold Reader.located
  cases o with
  | none =>
    obtain ⟨e, c', hrun⟩ := hread
    exact ⟨_, c', by rw [hrun]⟩
  | some a =>
    obtain ⟨c', hrun, hkept⟩ := hread
    exact ⟨c', by rw [hrun], hkept⟩

theorem Fails.located {r : Reader α} (h : r.Fails) : (Reader.located r).Fails := by
  intro c
  obtain ⟨e, c', hrun⟩ := h c
  exact ⟨_, c', by rw [Reader.located, hrun]⟩

/-- Whatever is read first, nothing is given in the end. -/
theorem fails_bind {r : Reader β} {f : β → Reader α} (h : ∀ b, (f b).Fails) :
    (r >>= f).Fails := by
  intro c
  rw [run_bind]
  cases r c with
  | ok b c' => exact h b c'
  | error e c' => exact ⟨e, c', rfl⟩

/-- It does not matter with what fault a reader stops. -/
theorem Yields.replaced {r r' : Reader β} {f : β → Reader α} (h : (r >>= f).Yields cs tail depth o)
    (hok : ∀ c b c', r c = .ok b c' → r' c = .ok b c')
    (herror : ∀ c e c', r c = .error e c' → ∃ e' c'', r' c = .error e' c'') :
    (r' >>= f).Yields cs tail depth o := by
  intro c hc hbound hdepth
  have hread := h c hc hbound hdepth
  rw [run_bind] at hread ⊢
  cases hrun : r c with
  | ok b c' =>
    rw [hrun] at hread
    rw [hok c b c' hrun]
    exact hread
  | error e c' =>
    rw [hrun] at hread
    obtain ⟨e', c'', hrun'⟩ := herror c e c' hrun
    rw [hrun']
    cases o with
    | none => exact ⟨e', c'', rfl⟩
    | some a =>
      obtain ⟨_, hstop, -⟩ := hread
      cases hstop

/-- The first character of a value says how it is read. -/
theorem yields_token {f : Option Char → Reader α} {a : List Char} (ha : Blanks a) {x : Char}
    (hx : isBlank x = false) (h : (f (some x)).Yields (x :: cs) tail depth o) :
    (peekToken >>= f).Yields (a ++ x :: cs) tail depth o :=
  Yields.past (accepts_blanks ha (noBlank_cons hx)) h

/-- A number starts with its sign or with a digit. -/
theorem head_of_literal {l : Literal} (hl : l.WellFormed) :
    ∃ x rest, l.text = x :: rest ∧ isBlank x = false ∧ (x = '-' ∨ isDigit x = true) := by
  unfold Literal.text
  cases l.negative with
  | true => exact ⟨'-', _, rfl, rfl, .inl rfl⟩
  | false =>
    obtain ⟨x, ds, hwhole⟩ := List.exists_cons_of_ne_nil hl.nonempty
    have hx : isDigit x = true := hl.whole x (hwhole ▸ List.mem_cons_self)
    rw [hwhole]
    exact ⟨x, _, rfl, isBlank_of_isDigit hx, .inr hx⟩

/-- The kind of a value can be told from its first character. -/
theorem kind_of_head (h : Spells t cs) : ∃ x rest, cs = x :: rest ∧ isBlank x = false ∧
    (x = '"' → ∃ pieces, t = .string pieces) ∧ (x = '[' → ∃ ts, t = .array ts) ∧
    (x = '\x7b' → ∃ ms, t = .object ms) ∧
    (x = '-' ∨ isDigit x = true → ∃ l, t = .number l) := by
  cases h with
  | null => exact ⟨_, _, rfl, rfl, by simp [isDigit]⟩
  | true => exact ⟨_, _, rfl, rfl, by simp [isDigit]⟩
  | false => exact ⟨_, _, rfl, rfl, by simp [isDigit]⟩
  | string => exact ⟨_, _, rfl, rfl, by simp [isDigit]⟩
  | array => exact ⟨_, _, rfl, rfl, by simp [isDigit]⟩
  | object => exact ⟨_, _, rfl, rfl, by simp [isDigit]⟩
  | number hl =>
    obtain ⟨x, rest, htext, hx, hstart⟩ := head_of_literal hl
    have hother {y : Char} (hy : y ≠ '-') (hdigit : isDigit y = false) : x ≠ y := by
      rintro rfl
      rcases hstart with rfl | hstart
      · exact hy rfl
      · cases hdigit.symm.trans hstart
    exact ⟨x, rest, htext, hx, fun h => absurd h (hother (by decide) rfl),
      fun h => absurd h (hother (by decide) rfl), fun h => absurd h (hother (by decide) rfl),
      fun _ => ⟨_, rfl⟩⟩

end Reader

/-! ## Decoders -/

namespace Decoder

/-- What a decoder makes of the text of a value, with blanks in front of it: something, or nothing
if it refuses the value. -/
def Makes (d : Decoder α) (cs : List Char) (depth : Nat) (o : Option α) : Prop :=
  ∀ a tail, Blanks a → EndsValue tail → d.read.Yields (a ++ cs) tail depth o

variable {d : Decoder α}

theorem Makes.map (f : α → β) (h : d.Makes cs depth o) : (d.map f).Makes cs depth (o.map f) :=
  fun a tail ha ht => (h a tail ha ht).map f

theorem Makes.run {a b : List Char} (h : d.Makes cs 127 o) (ha : Blanks a) (hb : Blanks b)
    {text : String} (htext : text.toList = a ++ (cs ++ b)) : (d.parse text).toOption = o := by
  have hends : EndsValue (b ++ []) := Reader.endsValue_blanks hb Reader.endsValue_nil
  exact (h a _ ha hends).run hb (htext.trans (List.append_assoc ..).symm)

theorem fails_refuseNext (expected : String) : (refuseNext expected : Reader α).Fails := by
  refine Fails.located (Reader.fails_bind fun x => ?_)
  split
  · exact Reader.fails_mismatch _
  · exact Reader.fails_mismatch _
  · exact Reader.fails_bind fun _ => Reader.fails_mismatch _

theorem yields_check (r : Except Error α) : (check r).Yields [] tail depth r.toOption := by
  cases r with
  | ok a => exact Accepts.yields fun c hc _ _ => ⟨c, rfl, hc, rfl, rfl⟩
  | error e => exact Fails.yields fun c => ⟨e, c, rfl⟩

theorem value_makes (h : Spells t cs) : value.Makes cs depth (t.value? depth) :=
  fun _ _ ha ht => Reader.yields_value h ha ht

theorem raw_makes (h : Spells t cs) : raw.Makes cs depth (some (String.ofList cs)) :=
  fun _ _ ha ht => (Reader.accepts_raw h ha ht).yields

/-! ## Texts and numbers -/

section textWith

variable {expected : String} {f : String → Except String α}

theorem textWith_makes {pieces : List Piece} (hwf : ∀ p ∈ pieces, p.WellFormed) :
    (textWith expected f).Makes (quoted pieces) depth
      (((unescape pieces).map String.ofList).bind fun s => (f s).toOption) := by
  intro a tail ha _
  refine Reader.yields_token ha rfl ?_
  refine Yields.located (Yields.cons (Reader.accepts_skip '"') ?_)
  refine (Reader.yields_string hwf).last fun s _ => ?_
  cases f s with
  | ok a => exact Reader.accepts_pure.yields
  | error reason => exact (Reader.fails_mismatch reason).yields

theorem textWith_refuses (h : Spells t cs) (ht : ∀ pieces, t ≠ .string pieces) :
    (textWith expected f).Makes cs depth none := by
  intro a tail ha _
  obtain ⟨x, rest, rfl, hx, hstring, -⟩ := Reader.kind_of_head h
  refine Reader.yields_token ha hx ?_
  split
  · cases ‹some x = none›
  · obtain ⟨pieces, rfl⟩ := hstring (Option.some.inj ‹_›)
    exact absurd rfl (ht pieces)
  · exact (fails_refuseNext _).yields

end textWith

section whole

variable {low high : Int} {expected : String}

theorem whole_makes {l : Literal} (hl : l.WellFormed) :
    (whole low high expected).Makes l.text depth
      (l.value?.bind fun v => (wholeIn low high expected v).toOption) := by
  intro a tail ha ht
  have hchecked (positive : Bool) (h : positive = !l.negative) :
      (Reader.number positive >>= fun v => check (wholeIn low high expected v)).Yields
        (l.whole ++ l.tail) tail depth
        (l.value?.bind fun v => (wholeIn low high expected v).toOption) := by
    subst h
    exact (Reader.yields_number hl ht).last fun v _ => yields_check _
  unfold Literal.text
  cases hnegative : l.negative with
  | true =>
    refine Reader.yields_token ha rfl ?_
    exact Yields.located
      (Yields.cons (Reader.accepts_skip '-') (hchecked false (by rw [hnegative]; rfl)))
  | false =>
    obtain ⟨x, ds, hwhole⟩ := List.exists_cons_of_ne_nil hl.nonempty
    have hx : isDigit x = true := hl.whole x (hwhole ▸ List.mem_cons_self)
    have hnumber := hchecked true (by rw [hnegative]; rfl)
    rw [hwhole] at hnumber ⊢
    refine Reader.yields_token ha (Reader.isBlank_of_isDigit hx) ?_
    split
    · cases ‹some x = none›
    · exact absurd (Option.some.inj ‹_›) (Reader.ne_of_isDigit hx rfl)
    · cases ‹some x = some _›
      rw [if_pos hx]
      exact Yields.located hnumber

theorem whole_refuses (h : Spells t cs) (ht : ∀ l, t ≠ .number l) :
    (whole low high expected).Makes cs depth none := by
  intro a tail ha _
  obtain ⟨x, rest, rfl, hx, -, -, -, hnumber⟩ := Reader.kind_of_head h
  have hno : ¬ (x = '-' ∨ isDigit x = true) := by
    intro hstart
    obtain ⟨l, rfl⟩ := hnumber hstart
    exact ht l rfl
  refine Reader.yields_token ha hx ?_
  split
  · cases ‹some x = none›
  · exact absurd (.inl (Option.some.inj ‹_›)) hno
  · cases ‹some x = some _›
    rw [if_neg fun hdigit => hno (.inr hdigit)]
    exact (fails_refuseNext _).yields

end whole

/-! ## Arrays -/

/-- If the inside is faulty its end is looked for all the same, but what comes of it is a fault. -/
theorem yields_enclosed {inside : Reader α} {close : Reader Unit} (x : Char)
    (h : (do let a ← inside; close; pure a : Reader α).Yields cs tail depth o) :
    (enclosed inside close).Yields (x :: cs) tail (depth + 1) o := by
  have hentered : (enclosed inside close).Yields (x :: cs) tail (depth + 1) (o.map id) := by
    refine Yields.located (Yields.entered id x (h.replaced ?_ ?_))
    · intro c b c' hrun
      simp only [hrun]
    · intro c e c' hrun
      simp only [hrun]
      cases close c' with
      | ok _ c'' => exact ⟨e, c'', rfl⟩
      | error _ c'' => exact ⟨e, c'', rfl⟩
  rwa [Option.map_id_fun] at hentered

theorem enclosed_zero {inside : Reader α} {close : Reader Unit} :
    (enclosed inside close).Yields cs tail 0 none :=
  Yields.located Reader.yields_enter_zero

/-- The items of an array are read, up to its end. -/
def MakesItems (d : Decoder α) (first : Bool) (ds : List Char) (depth : Nat)
    (o : Option (List α)) : Prop :=
  ∀ (fuel : Nat) (done : List α) (tail : List Char), 2 * ds.length < fuel →
    (itemsWith d.read fuel first done).Yields ds (']' :: tail) depth (o.map (done.reverse ++ ·))

theorem makesItems_nil {first : Bool} {b : List Char} (hb : Blanks b) :
    MakesItems d first b depth (some []) := by
  intro fuel done tail hfuel
  obtain ⟨fuel, rfl⟩ := Nat.exists_eq_add_one_of_ne_zero (Nat.ne_zero_of_lt hfuel)
  have hdone : (some []).map (done.reverse ++ ·) = some done.reverse :=
    congrArg some (List.append_nil _)
  rw [hdone]
  exact Accepts.yields ((Reader.accepts_itemsEnd first hb).last Reader.accepts_pure)

theorem makesItems_cons {first : Bool} {a : List Char} {p : Option (List α)}
    (hsep : Separates first a) (ht : Spells t cs) (hends : ∀ tail, EndsValue (ds ++ ']' :: tail))
    (hitem : d.Makes cs depth o) (hitems : MakesItems d false ds depth p) :
    MakesItems d first (a ++ (cs ++ ds)) depth (o.bind fun x => p.map (x :: ·)) := by
  intro fuel done tail hfuel
  obtain ⟨fuel, rfl⟩ := Nat.exists_eq_add_one_of_ne_zero (Nat.ne_zero_of_lt hfuel)
  obtain ⟨x, rest, rfl, hx, hend⟩ := Reader.head_of_spells ht
  simp only [List.length_append, List.length_cons] at hfuel
  have hsplit : (o.bind fun x => p.map (x :: ·)).map (done.reverse ++ ·) =
      o.bind fun x => p.map ((x :: done).reverse ++ ·) := by
    rw [Option.map_bind]
    refine Option.bind_congr fun v _ => ?_
    simp only [Option.map_map, Function.comp_def, List.reverse_cons, List.append_assoc,
      List.singleton_append]
  rw [hsplit]
  refine Yields.past (Reader.accepts_nextItem hsep hx hend) ?_
  refine Yields.bind (hitem [] _ nofun (hends tail)) fun v _ => ?_
  exact hitems fuel (v :: done) tail (by omega)

theorem list_makes {items : List Char} {p : Option (List α)}
    (h : MakesItems d true items depth p) :
    (list d).Makes ('[' :: (items ++ [']'])) (depth + 1) p := by
  intro a tail ha _
  refine Reader.yields_token ha rfl (yields_enclosed '[' ?_)
  refine Yields.closed (Yields.bounded fun fuel hfuel => ?_) Reader.accepts_endList
  have hitems := h fuel [] tail (by
    simp only [List.length_append] at hfuel
    omega)
  have hsame : p.map ([].reverse ++ ·) = p := Option.map_id'
  rwa [hsame] at hitems

theorem list_makes_zero {x : Char} (hx : isBlank x = false) : (list d).Makes (x :: cs) 0 none := by
  intro a tail ha _
  refine Reader.yields_token ha hx ?_
  split
  · exact (Reader.fails_failNext _).yields
  · exact enclosed_zero
  · exact (fails_refuseNext _).yields

theorem list_refuses (h : Spells t cs) (ht : ∀ ts, t ≠ .array ts) :
    (list d).Makes cs depth none := by
  intro a tail ha _
  obtain ⟨x, rest, rfl, hx, -, harray, -⟩ := Reader.kind_of_head h
  refine Reader.yields_token ha hx ?_
  split
  · cases ‹some x = none›
  · obtain ⟨ts, rfl⟩ := harray (Option.some.inj ‹_›)
    exact absurd rfl (ht ts)
  · exact (fails_refuseNext _).yields

/-! ## Entries of records -/

variable {fields : List (Field α)}

/-- What a member does to a record. -/
inductive Entry (α : Type) where
  /-- Its name stands for no characters, and nothing comes of the record. -/
  | refused
  /-- The record does not know its name. -/
  | unknown
  /-- It is a field, and stored if its value is not refused. -/
  | field (name : String) (store : Option (α → α))

/-- The names of the fields that were read, and the record so far. -/
abbrev Filled (α : Type) : Type := Finset String × α

/-- Puts an entry into a record. A field is refused if one of its name was read before. -/
def Entry.put : Entry α → Filled α → Option (Filled α)
  | .refused, _ => none
  | .unknown, p => some p
  | .field name store, (seen, a) =>
    if name ∈ seen then none else store.map fun s => (insert name seen, s a)

/-- Puts entries into a record one after the other. -/
def fill (es : List (Entry α)) (z : Option (Filled α)) : Option (Filled α) :=
  es.foldl (fun z e => z.bind e.put) z

theorem fill_none (es : List (Entry α)) : fill es none = none := by
  induction es with
  | nil => rfl
  | cons e es ih => exact ih

/-- The record, if all of its needed fields were read. -/
def complete (fields : List (Field α)) (p : Filled α) : Option α :=
  if ∀ f ∈ fields, f.required → f.name ∈ p.1 then some p.2 else none

/-- What comes of the members behind one that is a field. -/
theorem fill_field {es : List (Entry α)} {name : String} {store : Option (α → α)}
    {seen : Finset String} {a : α} (h : name ∉ seen) :
    (fill (.field name store :: es) (some (seen, a))).bind (complete fields) =
      store.bind fun s => (fill es (some (insert name seen, s a))).bind (complete fields) := by
  have hput : fill (.field name store :: es) (some (seen, a)) =
      fill es (if name ∈ seen then none else store.map fun s => (insert name seen, s a)) := rfl
  rw [hput, if_neg h]
  cases store with
  | none =>
    rw [Option.map_none, fill_none]
    rfl
  | some s => rfl

theorem fill_twice {es : List (Entry α)} {name : String} {store : Option (α → α)}
    {seen : Finset String} {a : α} (h : name ∈ seen) :
    fill (.field name store :: es) (some (seen, a)) = none := by
  have hput : fill (.field name store :: es) (some (seen, a)) =
      fill es (if name ∈ seen then none else store.map fun s => (insert name seen, s a)) := rfl
  rw [hput, if_pos h, fill_none]

/-! ## Objects that are records -/

theorem yields_complete {seen : List String} {a : α} :
    (do check (checkMissing fields seen); pure a : Reader α).Yields [] tail depth
      (complete fields (seen.toFinset, a)) := by
  have hdone : ((checkMissing fields seen).toOption.bind fun _ => some a) =
      complete fields (seen.toFinset, a) := by
    unfold complete
    cases hcheck : checkMissing fields seen with
    | ok _ =>
      have hneeded : ∀ f ∈ fields, f.required → f.name ∈ seen.toFinset := fun f hf hrequired =>
        List.mem_toFinset.mpr (needed_of_checkMissing hcheck f hf hrequired)
      rw [if_pos hneeded]
      rfl
    | error e =>
      rw [if_neg fun hneeded => ?_]
      · rfl
      · have hfound := checkMissing_of_needed fun f hf hrequired =>
          List.mem_toFinset.mp (hneeded f hf hrequired)
        cases hcheck.symm.trans hfound
  rw [← hdone]
  exact (yields_check _).last fun _ _ => Reader.accepts_pure.yields

/-- What a member with its text does to a record. -/
inductive Enters (fields : List (Field α)) (depth : Nat) : List Piece × List Char → Entry α → Prop
  | refused {pieces : List Piece} {cs : List Char} : unescape pieces = none →
    Enters fields depth (pieces, cs) .refused
  | unknown {pieces : List Piece} {cs xs : List Char} {t : Tree} : unescape pieces = some xs →
    fields.find? (fun f => f.name == String.ofList xs) = none → Spells t cs →
    Enters fields depth (pieces, cs) .unknown
  | field {pieces : List Piece} {cs xs : List Char} {f : Field α} {o : Option (α → α)} :
    unescape pieces = some xs → fields.find? (fun f => f.name == String.ofList xs) = some f →
    f.decoder.Makes cs depth o → Enters fields depth (pieces, cs) (.field f.name o)

/-- The members of an object are put into a record, up to its end. -/
def MakesMembers (fields : List (Field α)) (first : Bool) (ds : List Char) (depth : Nat)
    (es : List (Entry α)) : Prop :=
  ∀ (fuel : Nat) (seen : List String) (a : α) (tail : List Char), 2 * ds.length < fuel →
    (membersWith fields fuel first seen a).Yields ds ('\x7d' :: tail) depth
      ((fill es (some (seen.toFinset, a))).bind (complete fields))

theorem makesMembers_nil {first : Bool} {b : List Char} (hb : Blanks b) :
    MakesMembers fields first b depth [] := by
  intro fuel seen a tail hfuel
  obtain ⟨fuel, rfl⟩ := Nat.exists_eq_add_one_of_ne_zero (Nat.ne_zero_of_lt hfuel)
  refine Yields.last (g := fun _ => complete fields (seen.toFinset, a))
    (Reader.accepts_membersEnd first hb).yields ?_
  rintro _ ⟨⟩
  exact yields_complete

theorem makesMembers_cons {first : Bool} {a cs ds b a' : List Char} {pieces : List Piece}
    {e : Entry α} {es : List (Entry α)} (hsep : Separates first a)
    (hwf : ∀ p ∈ pieces, p.WellFormed) (hb : Blanks b) (ha' : Blanks a')
    (hends : ∀ tail, EndsValue (ds ++ '\x7d' :: tail))
    (he : Enters fields depth (pieces, cs) e) (hes : MakesMembers fields false ds depth es) :
    MakesMembers fields first (a ++ (quoted pieces ++ (b ++ ':' :: (a' ++ cs)) ++ ds)) depth
      (e :: es) := by
  intro fuel seen r tail hfuel
  obtain ⟨fuel, rfl⟩ := Nat.exists_eq_add_one_of_ne_zero (Nat.ne_zero_of_lt hfuel)
  have htext : quoted pieces ++ (b ++ ':' :: (a' ++ cs)) ++ ds =
      quoted pieces ++ (b ++ [':'] ++ (a' ++ cs ++ ds)) := by simp
  simp only [List.length_append, List.length_cons] at hfuel
  have hname : Reader.memberName.Yields (quoted pieces)
      (b ++ [':'] ++ (a' ++ cs ++ ds) ++ '\x7d' :: tail) depth
      ((unescape pieces).map String.ofList) := Reader.yields_memberName hwf
  refine Yields.past (Reader.accepts_nextMember hsep) ?_
  rw [if_pos rfl, htext]
  cases he with
  | refused hrefused =>
    rw [hrefused] at hname
    have hnone : fill (.refused :: es) (some (seen.toFinset, r)) = none := fill_none es
    rw [hnone]
    refine Yields.bind (g := fun _ => none) hname ?_
    rintro _ ⟨⟩
  | unknown hxs hunknown ht =>
    -- its value is read past, and the record is filled from what comes behind it
    rw [hxs] at hname
    refine Yields.bind hname (g := fun _ =>
      (fill es (some (seen.toFinset, r))).bind (complete fields)) ?_
    rintro _ ⟨⟩
    rw [hunknown]
    refine Yields.past (Reader.accepts_blankColon hb) ?_
    refine Yields.past (Reader.accepts_skipValue ht ha' (hends tail)) ?_
    exact hes fuel seen r tail (by omega)
  | @field _ _ xs f o hxs hfound hmakes =>
    rw [hxs] at hname
    refine Yields.bind hname (g := fun _ =>
      (fill (.field f.name o :: es) (some (seen.toFinset, r))).bind (complete fields)) ?_
    rintro _ ⟨⟩
    have hfits := List.find?_some hfound
    have hsame : f.name = String.ofList xs := beq_iff_eq.mp hfits
    rw [hfound, hsame]
    dsimp only
    split
    · -- a field that is given twice is refused before its value is read
      rename_i hseen
      rw [fill_twice (List.mem_toFinset.mpr (List.contains_iff_mem.mp hseen))]
      exact (Reader.fails_mismatch _).yields
    · rename_i hseen
      rw [fill_field fun h => hseen (List.contains_iff_mem.mpr (List.mem_toFinset.mp h))]
      refine Yields.past (Reader.accepts_blankColon hb) ?_
      refine Yields.bind (hmakes a' _ ha' (hends tail)) fun s _ => ?_
      have hrest := hes fuel (String.ofList xs :: seen) (s r) tail (by omega)
      rwa [List.toFinset_cons] at hrest

/-! ## Arrays that stand for records -/

/-- Items are read as the fields of a record, up to the end of their array; `n` were read before. -/
def MakesPositions (kind : String) (total : Nat) (fields : List (Field α)) (n : Nat) (a : α)
    (ds : List Char) (depth : Nat) (o : Option α) : Prop :=
  ∀ tail : List Char, (do
    let a ← positionsWith kind total fields n true a
    Reader.endList
    pure a : Reader α).Yields (ds ++ [']']) tail depth o

variable {kind : String} {total n : Nat} {a : α}

/-- Behind the last item only fields that may be missing are passed over. -/
theorem yields_positions_over (n : Nat) (a : α) :
    (positionsWith kind total fields n false a).Yields [] tail depth
      (if ∃ f ∈ fields, f.required then none else some a) := by
  induction fields generalizing n with
  | nil =>
    rw [if_neg fun ⟨_, h, _⟩ => by cases h]
    exact Reader.accepts_pure.yields
  | cons f fields ih =>
    refine Yields.first (a := false) Reader.accepts_pure ?_
    rw [if_neg Bool.false_ne_true]
    cases hrequired : f.required with
    | true =>
      rw [if_pos rfl, if_pos ⟨f, .head _, hrequired⟩]
      exact (Reader.fails_mismatch _).yields
    | false =>
      rw [if_neg Bool.false_ne_true]
      have hsame : (∃ g ∈ f :: fields, g.required) ↔ ∃ g ∈ fields, g.required := by
        simp [hrequired]
      simp only [hsame]
      exact ih (n + 1)

theorem accepts_blankEnd {b : List Char} (hb : Blanks b) :
    Reader.endList.Accepts (b ++ [']']) tail depth () :=
  Accepts.bind (Reader.accepts_blanks hb (Reader.noBlank_cons rfl)) (Reader.accepts_skip ']')

/-- An array does not end in front of an item. -/
theorem yields_noEnd {first : Bool} {a : List Char} (hsep : Separates first a) (ht : Spells t cs) :
    Reader.endList.Yields (a ++ (cs ++ ds)) tail depth none := by
  cases hsep with
  | first ha =>
    obtain ⟨x, rest, rfl, hx, hend⟩ := Reader.head_of_spells ht
    refine Reader.yields_token ha hx (Fails.yields ?_)
    split
    · exact absurd (Option.some.inj ‹_›) hend
    · refine Reader.fails_bind fun _ => Reader.fails_bind fun _ => ?_
      split
      · exact Reader.fails_failNext _
      · exact Reader.fails_failNext _
    · exact Reader.fails_failNext _
    · cases ‹some x = none›
  | next hb ha =>
    rw [List.append_assoc]
    refine Reader.yields_token hb rfl (Fails.yields ?_)
    refine Reader.fails_bind fun _ => Reader.fails_bind fun _ => ?_
    split
    · exact Reader.fails_failNext _
    · exact Reader.fails_failNext _

theorem makesPositions_end {b : List Char} (hb : Blanks b) :
    MakesPositions kind total fields n a b depth
      (if ∃ f ∈ fields, f.required then none else some a) := by
  intro tail
  cases fields with
  | nil =>
    rw [if_neg fun ⟨_, h, _⟩ => by cases h]
    refine Yields.first Reader.accepts_pure ?_
    exact Accepts.yields ((accepts_blankEnd hb).last Reader.accepts_pure)
  | cons f fields =>
    refine Yields.closed ?_ Reader.accepts_endList
    refine Yields.last (g := fun _ => if ∃ g ∈ f :: fields, g.required then none else some a)
      (Reader.accepts_itemsEnd (decide (n = 0)) hb).yields ?_
    rintro _ ⟨⟩
    exact yields_positions_over n a

theorem makesPositions_more {first : Bool} {b : List Char} (hsep : Separates first b)
    (ht : Spells t cs) :
    MakesPositions kind total ([] : List (Field α)) n a (b ++ (cs ++ ds)) depth none := by
  intro tail
  refine Yields.first Reader.accepts_pure ?_
  refine Yields.bind (g := fun _ => none) (yields_noEnd hsep ht) ?_
  rintro _ ⟨⟩

theorem makesPositions_cons {f : Field α} {b : List Char} {ts : List Tree} {s : Option (α → α)}
    (next : (α → α) → Option α) (hsep : Separates (decide (n = 0)) b) (ht : Spells t cs)
    (hts : SpellsItems false ts ds) (hs : f.decoder.Makes cs depth s)
    (hnext : ∀ store, s = some store →
      MakesPositions kind total fields (n + 1) (store a) ds depth (next store)) :
    MakesPositions kind total (f :: fields) n a (b ++ (cs ++ ds)) depth (s.bind next) := by
  intro tail
  obtain ⟨x, rest, rfl, hx, hend⟩ := Reader.head_of_spells ht
  have hends : EndsValue (ds ++ [']'] ++ tail) := by
    rw [List.append_assoc]
    exact Reader.endsValue_items hts (Reader.endsValue_bracket tail)
  rw [positionsWith, if_pos rfl, bind_assoc, List.append_assoc]
  refine Yields.past (Reader.accepts_nextItem hsep hx hend) ?_
  rw [if_pos rfl, List.append_assoc, bind_assoc]
  exact Yields.bind (hs [] _ nofun hends) fun store hstore => hnext store hstore tail

/-! ## Records -/

theorem record_makes_object {start : α} {es : List (Entry α)}
    (h : MakesMembers fields true ds depth es) :
    (record kind start fields).Makes ('\x7b' :: (ds ++ ['\x7d'])) (depth + 1)
      ((fill es (some (∅, start))).bind (complete fields)) := by
  intro a tail ha _
  refine Reader.yields_token ha rfl (yields_enclosed '\x7b' ?_)
  refine Yields.closed (Yields.bounded fun fuel hfuel => ?_) Reader.accepts_endObject
  simp only [List.length_append] at hfuel
  exact h fuel [] start tail (by omega)

theorem record_makes_array {start : α}
    (h : MakesPositions kind fields.length fields 0 start ds depth o) :
    (record kind start fields).Makes ('[' :: (ds ++ [']'])) (depth + 1) o := by
  intro a tail ha _
  exact Reader.yields_token ha rfl (yields_enclosed '[' (h tail))

theorem record_makes_zero {start : α} {x : Char} (hx : isBlank x = false) :
    (record kind start fields).Makes (x :: cs) 0 none := by
  intro a tail ha _
  refine Reader.yields_token ha hx ?_
  split
  · exact (Reader.fails_failNext _).yields
  · exact enclosed_zero
  · exact enclosed_zero
  · exact (fails_refuseNext _).yields

theorem record_refuses {start : α} (h : Spells t cs) (harray : ∀ ts, t ≠ .array ts)
    (hobject : ∀ ms, t ≠ .object ms) : (record kind start fields).Makes cs depth none := by
  intro a tail ha _
  obtain ⟨x, rest, rfl, hx, -, hbracket, hbrace, -⟩ := Reader.kind_of_head h
  refine Reader.yields_token ha hx ?_
  split
  · cases ‹some x = none›
  · obtain ⟨ms, rfl⟩ := hbrace (Option.some.inj ‹_›)
    exact absurd rfl (hobject ms)
  · obtain ⟨ts, rfl⟩ := hbracket (Option.some.inj ‹_›)
    exact absurd rfl (harray ts)
  · exact (fails_refuseNext _).yields

end Decoder

end ScriptedActions.Json
