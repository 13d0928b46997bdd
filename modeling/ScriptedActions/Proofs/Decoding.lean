import ScriptedActions.Proofs.DecodedOutcomes
import ScriptedActions.Proofs.JsonReadBack

/-!
# Decoding what was printed

A decoder reads the text of a value as something of a type (`Decoder.ReadsAs`). It is said here for
printed texts, decoder by decoder: strings, whole numbers, lists, and records. What a decoder makes
of any text is known (`Decoder.Makes`), so it only has to be said what a printed text spells.

A record is an object whose members fill the fields of a value one after the other. `Fills` says
what the members make of a value, in the order in which they stand in the text, and does not depend
on the order of the fields.
-/

set_option autoImplicit false

namespace ScriptedActions.Json.Decoder

open Reader (EndsValue)

variable {α β : Type} {depth : Nat} {a b : α} {v : Json} {d : Decoder α}

/-- The text of a value is read as something. -/
def ReadsAs (d : Decoder α) (depth : Nat) (v : Json) (a : α) : Prop :=
  d.Makes v.render.toList depth (some a)

theorem ReadsAs.map (f : α → β) (h : d.ReadsAs depth v a) : (d.map f).ReadsAs depth v (f a) :=
  Makes.map f h

/-- What a decoder makes of the text of a value is what a whole text is read as. -/
theorem Makes.parse {text : String} (h : d.Makes text.toList 127 (some a)) :
    d.parse text = .ok a := by
  have htext : text.toList = [] ++ (text.toList ++ []) := by
    rw [List.nil_append, List.append_nil]
  have hread : (d.parse text).toOption = some a := h.run (a := []) (b := []) nofun nofun htext
  cases hparse : d.parse text with
  | error e =>
    rw [hparse] at hread
    cases hread
  | ok b =>
    rw [hparse] at hread
    cases hread
    rfl

theorem ReadsAs.parse (h : d.ReadsAs 127 v a) : d.parse v.render = .ok a :=
  Makes.parse h

theorem value_readsAs (h : IsReadable depth v) (hexact : v.IsExact) :
    value.ReadsAs depth v v := by
  obtain ⟨t, ht, hvalue⟩ := exists_told hexact
  rw [ReadsAs, ← hvalue depth h]
  exact value_makes ht

theorem raw_readsAs (hexact : v.IsExact) : raw.ReadsAs depth v v.render := by
  obtain ⟨t, ht, -⟩ := exists_told hexact
  have hraw : raw.Makes v.render.toList depth _ := raw_makes ht
  rwa [String.ofList_toList] at hraw

theorem textWith_readsAs (expected : String) {f : String → Except String α} {s : String}
    (hf : f s = .ok a) : (textWith expected f).ReadsAs depth (.string s) a := by
  obtain ⟨pieces, hwf, htext, hvalue⟩ := exists_quoted s
  have hmakes : (textWith expected f).Makes (quoted pieces) depth _ := textWith_makes hwf
  rw [htext, hvalue, Option.map_some, String.ofList_toList, Option.bind_some, hf] at hmakes
  exact hmakes

theorem text_readsAs (s : String) : text.ReadsAs depth (.string s) s :=
  textWith_readsAs "a string" rfl

theorem whole_readsAs {low high z : Int} (expected : String) (hz : low ≤ z ∧ z ≤ high)
    (hfits : minInt ≤ z ∧ z ≤ maxNat) : (whole low high expected).ReadsAs depth (.int z) z := by
  have hmakes : (whole low high expected).Makes (Literal.ofInt z).text depth _ :=
    whole_makes (Literal.wellFormed_ofInt z)
  rw [Literal.text_ofInt, Literal.value?_ofInt hfits, Option.bind_some, wholeIn, if_pos hz] at hmakes
  exact hmakes

/-! ## Arrays and objects -/

theorem makesItems_joined {encode : α → Json} {as : List α}
    (hitems : ∀ a ∈ as, d.ReadsAs depth (encode a) a) (hexact : ∀ a ∈ as, (encode a).IsExact)
    (first : Bool) :
    MakesItems d first (joined first (as.map fun a => (encode a).render.toList)) depth
      (some as) := by
  induction as generalizing first with
  | nil => exact makesItems_nil nofun
  | cons b rest ih =>
    obtain ⟨t, ht, -⟩ := exists_told (hexact b (.head _))
    have hends (tail : List Char) : EndsValue
        (joined false (rest.map fun a => (encode a).render.toList) ++ ']' :: tail) :=
      Reader.endsValue_joined _ (Reader.endsValue_bracket tail)
    exact makesItems_cons (separates_joined first) ht hends (hitems b (.head _))
      (ih (fun c hc => hitems c (.tail _ hc)) (fun c hc => hexact c (.tail _ hc)) false)

theorem list_readsAs {encode : α → Json} {as : List α}
    (hitems : ∀ a ∈ as, d.ReadsAs depth (encode a) a) (hexact : ∀ a ∈ as, (encode a).IsExact) :
    (list d).ReadsAs (depth + 1) (.array (as.map encode)) as := by
  have hmakes := list_makes (makesItems_joined hitems hexact true)
  rw [ReadsAs, toList_render_array, List.map_map]
  exact hmakes

/-! ## Members in writing

The text of a member need not be the text of a value that was read: a raw text is written as it is.
-/

/-- A member in writing, of which the text of the value is known. -/
def writtenMember (m : String × List Char) : List Char := (stringText m.1).toList ++ ':' :: m.2

/-- What members in writing make of a record: each is read by the decoder of its field, and stored.
-/
inductive FillsFrom (fields : List (Field α)) (depth : Nat) : List (String × List Char) → α → α → Prop
  | nil (a : α) : FillsFrom fields depth [] a a
  | cons {name : String} {cs : List Char} {f : Field α} {store : α → α}
    {rest : List (String × List Char)} {a b : α}
    (hf : fields.find? (fun f => f.name == name) = some f)
    (hcs : f.decoder.Makes cs depth (some store))
    (hrest : FillsFrom fields depth rest (store a) b) :
    FillsFrom fields depth ((name, cs) :: rest) a b

variable {fields : List (Field α)}

/-- Members that fill a record are entries of it, and none of them is refused. -/
theorem FillsFrom.entries {ms : List (String × List Char)} (hfills : FillsFrom fields depth ms a b) :
    ∃ es, (∀ first, MakesMembers fields first (joined first (ms.map writtenMember)) depth es) ∧
      ∀ seen : List String, (∀ k ∈ ms.map Prod.fst, k ∉ seen) → (ms.map Prod.fst).Nodup →
        fill es (some (seen.toFinset, a)) =
          some (((ms.map Prod.fst).reverse ++ seen).toFinset, b) := by
  induction hfills with
  | nil a => exact ⟨[], fun _ => makesMembers_nil nofun, fun _ _ _ => rfl⟩
  | @cons name cs f store rest a b hf hcs hrest ih =>
    obtain ⟨es, hes, hfill⟩ := ih
    obtain ⟨pieces, hwf, htext, hname⟩ := exists_quoted name
    have hfits := List.find?_some hf
    have hsame : f.name = name := beq_iff_eq.mp hfits
    have hfound : fields.find? (fun f => f.name == String.ofList name.toList) = some f := by
      rwa [String.ofList_toList]
    refine ⟨.field f.name (some store) :: es, fun first => ?_, fun seen hnew hdistinct => ?_⟩
    · have hends (tail : List Char) :
          EndsValue (joined false (rest.map writtenMember) ++ '\x7d' :: tail) :=
        Reader.endsValue_joined _ (Reader.endsValue_brace tail)
      have hmember : MakesMembers fields first ((if first then [] else [',']) ++
          (quoted pieces ++ ([] ++ ':' :: ([] ++ cs)) ++
            joined false (rest.map writtenMember))) depth (.field f.name (some store) :: es) :=
        makesMembers_cons (separates_joined first) hwf nofun nofun hends
          (.field hname hfound hcs) (hes false)
      rw [htext] at hmember
      exact hmember
    · rw [List.map_cons] at hnew hdistinct ⊢
      obtain ⟨hfresh, hdistinct'⟩ := List.nodup_cons.mp hdistinct
      have hnew' : ∀ k ∈ rest.map Prod.fst, k ∉ name :: seen := by
        intro k hk hmem
        rcases List.mem_cons.mp hmem with rfl | hseen
        · exact hfresh hk
        · exact hnew k (.tail _ hk) hseen
      have hunseen : name ∉ seen.toFinset := fun h => hnew name (.head _) (List.mem_toFinset.mp h)
      have hput : fill (.field f.name (some store) :: es) (some (seen.toFinset, a)) =
          fill es (some ((name :: seen).toFinset, store a)) := by
        rw [hsame, List.toFinset_cons]
        exact congrArg (fill es) (if_neg hunseen)
      rw [hput, hfill (name :: seen) hnew' hdistinct', List.reverse_cons, List.append_assoc,
        List.singleton_append]

/-- An object in writing is read as the record that its members make, if they are told apart by
their names and none that is needed is missing. -/
theorem record_makes_written (kind : String) {ms : List (String × List Char)}
    (hfills : FillsFrom fields depth ms a b) (hdistinct : (ms.map Prod.fst).Nodup)
    (hmissing : checkMissing fields (ms.map Prod.fst).reverse = .ok ()) :
    (record kind a fields).Makes ('\x7b' :: (joined true (ms.map writtenMember) ++ ['\x7d']))
      (depth + 1) (some b) := by
  obtain ⟨es, hes, hfill⟩ := hfills.entries
  have hmakes : (record kind a fields).Makes _ (depth + 1) _ := record_makes_object (hes true)
  have hneeded : ∀ f ∈ fields, f.required → f.name ∈ (ms.map Prod.fst).reverse.toFinset :=
    fun f hf hrequired => List.mem_toFinset.mpr (needed_of_checkMissing hmissing f hf hrequired)
  rwa [← List.toFinset_nil, hfill [] (fun _ _ => List.not_mem_nil) hdistinct, List.append_nil,
    Option.bind_some, complete, if_pos hneeded] at hmakes

/-! ## Records -/

/-- What the members of an object make of a record: each is read by the decoder of its field, and
stored. -/
inductive Fills (fields : List (Field α)) (depth : Nat) : Table Json → α → α → Prop
  | nil (a : α) : Fills fields depth [] a a
  | cons {name : String} {v : Json} {f : Field α} {store : α → α} {rest : Table Json} {a b : α}
    (hf : fields.find? (fun f => f.name == name) = some f) (hv : f.decoder.ReadsAs depth v store)
    (hrest : Fills fields depth rest (store a) b) : Fills fields depth ((name, v) :: rest) a b

variable {members : Table Json}

theorem Fills.written (hfills : Fills fields depth members a b) :
    FillsFrom fields depth (members.map fun e => (e.1, e.2.render.toList)) a b := by
  induction hfills with
  | nil a => exact .nil a
  | cons hf hv _ ih => exact .cons hf hv ih

/-- An object is read as the record that its members make, if they are told apart by their names and
none that is needed is missing. -/
theorem record_readsAs (kind : String) (hfills : Fills fields depth members a b)
    (hdistinct : members.keys.Nodup) (hmissing : checkMissing fields members.keys.reverse = .ok ()) :
    (record kind a fields).ReadsAs (depth + 1) (.object members) b := by
  have hkeys : (members.map fun e => (e.1, e.2.render.toList)).map Prod.fst = members.keys :=
    List.map_map
  have hmakes := record_makes_written kind hfills.written (hkeys ▸ hdistinct) (hkeys ▸ hmissing)
  rw [List.map_map] at hmakes
  rw [ReadsAs, toList_render_object]
  exact hmakes

end ScriptedActions.Json.Decoder
