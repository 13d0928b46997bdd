import ScriptedActions.Proofs.JsonMeaning

/-!
# What is printed is read back

The text of a value is read as the value again (`parse_render`). Two things are left out, since they
do not come back: floats, whose text is read with an error in the last digit at times, and values
that are nested deeper than a reader goes.

What is printed is spelled by the grammar, so no reader is gone through again: a printed value has a
tree (`exists_told`), and of this tree it is known already what is read and what is passed over.
-/

set_option autoImplicit false

namespace ScriptedActions.Json

open Reader (EndsValue)

/-! ## Strings -/

/-- A character is printed as a part of a string that stands for this character. -/
theorem exists_piece (c : Char) : ∃ p : Piece, p.WellFormed ∧ p.text = (escapeChar c).toList ∧
    ∀ ps xs, unescape ps = some xs → unescape (p :: ps) = some (c :: xs) := by
  rcases toList_escapeChar c with ⟨htext, hplain⟩ | ⟨e, htext, -, hescape⟩ |
    ⟨digits, htext, hlength, hvalue, hcontrol⟩
  · refine ⟨.plain c, hplain, htext.symm, fun ps xs hxs => ?_⟩
    rw [unescape, hxs]
    rfl
  · refine ⟨.escape e, by rw [Piece.WellFormed, hescape]; rfl, htext.symm, fun ps xs hxs => ?_⟩
    rw [unescape, hescape, hxs]
    rfl
  · refine ⟨.unit digits, ⟨hlength, by rw [hvalue]; rfl⟩, htext.symm, fun ps xs hxs => ?_⟩
    -- a control is no half of a pair
    have hlow : isLowSurrogate c.toNat = false := by
      unfold isLowSurrogate
      simp only [Bool.and_eq_false_iff, decide_eq_false_iff_not]
      omega
    have hhigh : isHighSurrogate c.toNat = false := by
      unfold isHighSurrogate
      simp only [Bool.and_eq_false_iff, decide_eq_false_iff_not]
      omega
    unfold unescape
    simp only [hvalue, Option.bind_eq_bind, Option.bind_some, hlow, hhigh, Bool.false_eq_true,
      if_false, hxs, Option.map_some, Char.ofNat_toNat]

theorem exists_pieces (cs : List Char) : ∃ pieces : List Piece, (∀ p ∈ pieces, p.WellFormed) ∧
    pieces.flatMap Piece.text = escaped cs ∧ unescape pieces = some cs := by
  induction cs with
  | nil => exact ⟨[], nofun, rfl, rfl⟩
  | cons c cs ih =>
    obtain ⟨pieces, hwf, htext, hvalue⟩ := ih
    obtain ⟨p, hp, hptext, hpvalue⟩ := exists_piece c
    refine ⟨p :: pieces, ?_, ?_, hpvalue pieces cs hvalue⟩
    · intro q hq
      rcases List.mem_cons.mp hq with rfl | hq
      · exact hp
      · exact hwf q hq
    · rw [List.flatMap_cons, hptext, htext]
      rfl

/-- A string is printed as the parts of a string that stand for its characters. -/
theorem exists_quoted (s : String) : ∃ pieces : List Piece, (∀ p ∈ pieces, p.WellFormed) ∧
    quoted pieces = (stringText s).toList ∧ unescape pieces = some s.toList := by
  obtain ⟨pieces, hwf, htext, hvalue⟩ := exists_pieces s.toList
  exact ⟨pieces, hwf, by rw [toList_stringText, ← htext]; rfl, hvalue⟩

/-! ## Numbers -/

/-- A whole number as it is printed. -/
def Literal.ofInt (z : Int) : Literal := ⟨decide (z < 0), decimal z.natAbs, none, none⟩

theorem Literal.text_ofInt (z : Int) : (Literal.ofInt z).text = (render (.int z)).toList := by
  rw [toList_render_int, Literal.text]
  by_cases h : z < 0 <;> simp [Literal.ofInt, Literal.tail, h]

theorem Literal.wellFormed_ofInt (z : Int) : (Literal.ofInt z).WellFormed where
  whole := digits_decimal _
  nonempty := Nat.toDigits_ne_nil
  leading h := by
    obtain ⟨x, ds, hdecimal, -, -, hzero⟩ := decimal_cases z.natAbs
    simp only [Literal.ofInt, hdecimal, List.head?_cons, Option.some.injEq] at h ⊢
    rw [h, (hzero h).2]
  fraction := nofun
  exponent := nofun

/-- The value of a whole number that 64 bits can hold is the number. -/
theorem Literal.value?_ofInt {z : Int} (hz : minInt ≤ z ∧ z ≤ maxNat) :
    (Literal.ofInt z).value? = some (.int z) := by
  have hnumber : (Reader.number (!decide (z < 0))).Yields (decimal z.natAbs ++ []) [] 0
      (some (.int z)) := by
    rw [List.append_nil]
    by_cases hnegative : z < 0
    · rw [decide_eq_true hnegative]
      exact (Reader.accepts_negative hz.1 hnegative Reader.endsValue_nil.endsNumber).yields
    · rw [decide_eq_false hnegative]
      exact (Reader.accepts_natural (Int.not_lt.mp hnegative) hz.2
        Reader.endsValue_nil.endsNumber).yields
  exact (Reader.yields_number (Literal.wellFormed_ofInt z) Reader.endsValue_nil).unique hnumber

/-! ## Values -/

/-- The text of a value spells a tree, and the value of this tree is the value, in so far as it can
be read at all. -/
def Told (v : Json) (t : Tree) : Prop :=
  Spells t v.render.toList ∧ ∀ depth, IsReadable depth v → t.value? depth = some v

theorem separates_joined (first : Bool) : Separates first (if first then [] else [',']) := by
  cases first with
  | true => exact .first nofun
  | false => exact .next (b := []) nofun nofun

theorem exists_items {items : List Json} (h : ∀ v ∈ items, ∃ t, Told v t) :
    ∃ ts, (∀ first, SpellsItems first ts (joined first (items.map (·.render.toList)))) ∧
      ∀ depth, (∀ v ∈ items, IsReadable depth v) → itemValues? ts depth = some items := by
  induction items with
  | nil => exact ⟨[], fun _ => .nil nofun, fun _ _ => rfl⟩
  | cons v rest ih =>
    obtain ⟨t, ht, hvalue⟩ := h v (.head _)
    obtain ⟨ts, hts, hvalues⟩ := ih fun w hw => h w (.tail _ hw)
    refine ⟨t :: ts, fun first => .cons (separates_joined first) ht (hts false), ?_⟩
    intro depth hreadable
    rw [itemValues?, hvalue depth (hreadable v (.head _)),
      hvalues depth fun w hw => hreadable w (.tail _ hw)]
    rfl

/-- A member is printed with its name and its value, and nothing between them but a colon. -/
theorem spellsMember_of_told {name : String} {v : Json} {t : Tree} {pieces : List Piece}
    (hwf : ∀ p ∈ pieces, p.WellFormed) (htext : quoted pieces = (stringText name).toList)
    (ht : Spells t v.render.toList) : SpellsMember (pieces, t) (memberText (name, v)) := by
  have hblank : Blanks [] := fun _ h => absurd h List.not_mem_nil
  rw [memberText, ← htext]
  exact .intro hwf hblank hblank ht

theorem exists_members {members : List (String × Json)} (h : ∀ e ∈ members, ∃ t, Told e.2 t) :
    ∃ ms, (∀ first, SpellsMembers first ms (joined first (members.map memberText))) ∧
      ∀ depth, (∀ e ∈ members, IsReadable depth e.2) → memberValues? ms depth = some members := by
  induction members with
  | nil => exact ⟨[], fun _ => .nil nofun, fun _ _ => rfl⟩
  | cons e rest ih =>
    obtain ⟨name, v⟩ := e
    obtain ⟨t, ht, hvalue⟩ := h (name, v) (.head _)
    obtain ⟨ms, hms, hvalues⟩ := ih fun f hf => h f (.tail _ hf)
    obtain ⟨pieces, hwf, htext, hname⟩ := exists_quoted name
    have hmember : SpellsMember (pieces, t) (memberText (name, v)) :=
      spellsMember_of_told hwf htext ht
    refine ⟨(pieces, t) :: ms, fun first => .cons (separates_joined first) hmember (hms false), ?_⟩
    intro depth hreadable
    rw [memberValues?, hname, hvalue depth (hreadable (name, v) (.head _)),
      hvalues depth fun f hf => hreadable f (.tail _ hf)]
    simp only [Option.bind_some, Option.map_some, String.ofList_toList]

/-- **A value without floats is told by its text.** -/
theorem exists_told {v : Json} (h : v.IsExact) : ∃ t, Told v t := by
  induction h with
  | null => exact ⟨.null, .null, fun _ _ => rfl⟩
  | bool b =>
    cases b with
    | true => exact ⟨.bool true, .true, fun _ _ => rfl⟩
    | false => exact ⟨.bool false, .false, fun _ _ => rfl⟩
  | int z =>
    refine ⟨.number (.ofInt z), Literal.text_ofInt z ▸ .number (Literal.wellFormed_ofInt z), ?_⟩
    intro depth hreadable
    cases hreadable with | int hz =>
    exact Literal.value?_ofInt hz
  | string s =>
    obtain ⟨pieces, hwf, htext, hvalue⟩ := exists_quoted s
    refine ⟨.string pieces, ?_, fun depth _ => ?_⟩
    · show Spells (.string pieces) (stringText s).toList
      exact htext ▸ .string hwf
    · rw [Tree.value?, hvalue, Option.map_some, String.ofList_toList]
  | array _ ih =>
    obtain ⟨ts, hts, hvalues⟩ := exists_items ih
    refine ⟨.array ts, ?_, fun depth hreadable => ?_⟩
    · rw [toList_render_array]
      exact .array (hts true)
    · cases hreadable with | array hitems =>
      rw [Tree.value?, hvalues _ hitems, Option.map_some]
  | object _ _ ih =>
    obtain ⟨ms, hms, hvalues⟩ := exists_members ih
    refine ⟨.object ms, ?_, fun depth hreadable => ?_⟩
    · rw [toList_render_object]
      exact .object (hms true)
    · cases hreadable with | object hsorted hmembers =>
      rw [Tree.value?, hvalues _ hmembers, Option.map_some, Table.ofList_of_sorted hsorted]

/-- **What was printed is read as the value that it was printed from.** -/
theorem parse_render {v : Json} (h : IsReadable 127 v) (hexact : v.IsExact) :
    parse v.render = .ok v := by
  obtain ⟨t, ht, hvalue⟩ := exists_told hexact
  have hread := toOption_parse ⟨[], _, [], nofun, ht, nofun, (List.append_nil _).symm⟩
  rw [hvalue 127 h] at hread
  cases hparse : parse v.render with
  | error e =>
    rw [hparse] at hread
    cases hread
  | ok w =>
    rw [hparse] at hread
    cases hread
    rfl

end ScriptedActions.Json
