import Mathlib.Data.List.Forall2
import Mathlib.Data.List.Perm.Basic
import ScriptedActions.Proofs.DecodedOutcomes
import ScriptedActions.Proofs.JsonOrder

/-!
# Decoding members in another order

A decoder does not care about the order of members if it makes the same of the texts of reordered
trees, or refuses both (`Decoder.Respects`). What it makes need not be the same in every respect: a
decoder that keeps a text keeps two texts, and of these only what is read from them is the same
(`Agree`). So a decoder respects a relation between what it makes of the one and of the other.

Two members of a record may change their places, whatever they are: if both are the same field the
record is refused in either order, and different fields are stored in different places (`Apart`). So
a record does not depend on the order of its entries (`fill_perm`), and it respects a relation if
each of its fields does (`record_respects`). In an array that stands for a record nothing is reordered
but what is inside of its items.
-/

set_option autoImplicit false

namespace ScriptedActions.Json.Decoder

open Reader (Yields EndsValue)

variable {α β : Type} {cs ds : List Char} {depth : Nat} {t u : Tree} {R : α → α → Prop}
  {S : β → β → Prop} {d : Decoder α}

/-- A decoder makes related things of the texts of reordered trees, or refuses both. -/
def Respects (d : Decoder α) (R : α → α → Prop) : Prop :=
  ∀ ⦃t u : Tree⦄ ⦃cs ds : List Char⦄, Reorders t u → Spells t cs → Spells u ds → ∀ depth : Nat,
    ∃ o p, d.Makes cs depth o ∧ d.Makes ds depth p ∧ Option.Rel R o p

/-! ## Related outcomes -/

theorem rel_of_eq {o p : Option α} (hR : ∀ a, R a a) (h : o = p) : Option.Rel R o p := by
  subst h
  cases o with
  | none => exact .none
  | some a => exact .some (hR a)

theorem rel_map {f g : α → β} {o p : Option α} (h : Option.Rel R o p)
    (hfg : ∀ a b, R a b → S (f a) (g b)) : Option.Rel S (o.map f) (p.map g) := by
  cases h with
  | none => exact .none
  | some h => exact .some (hfg _ _ h)

theorem rel_bind {f g : α → Option β} {o p : Option α} (h : Option.Rel R o p)
    (hfg : ∀ a b, R a b → Option.Rel S (f a) (g b)) : Option.Rel S (o.bind f) (p.bind g) := by
  cases h with
  | none => exact .none
  | some h => exact hfg _ _ h

theorem Respects.map {f : α → β} (h : d.Respects R) (hf : ∀ a b, R a b → S (f a) (f b)) :
    (d.map f).Respects S := by
  intro t u cs ds htu hcs hds depth
  obtain ⟨o, p, ho, hp, hrel⟩ := h htu hcs hds depth
  exact ⟨o.map f, p.map f, ho.map f, hp.map f, rel_map hrel hf⟩

/-- What a decoder makes of the texts of reordered trees, from their first character to the last. -/
theorem Respects.parse (h : d.Respects R) (htu : Reorders t u) {text text' : String}
    (ht : IsText t text) (hu : IsText u text') :
    Option.Rel R (d.parse text).toOption (d.parse text').toOption := by
  obtain ⟨a, cs, b, ha, hcs, hb, htext⟩ := ht
  obtain ⟨a', ds, b', ha', hds, hb', htext'⟩ := hu
  obtain ⟨o, p, ho, hp, hrel⟩ := h htu hcs hds 127
  rwa [ho.run ha hb htext, hp.run ha' hb' htext']

/-! ## Values, texts and numbers -/

/-- A string has no members. -/
theorem textWith_respects {expected : String} {f : String → Except String α} :
    (textWith expected f).Respects Eq := by
  intro t u cs ds htu hcs hds depth
  cases htu with
  | string pieces =>
    cases hcs with
    | string hwf =>
      cases hds with
      | string =>
        exact ⟨_, _, textWith_makes hwf, textWith_makes hwf, rel_of_eq (fun _ => rfl) rfl⟩
  | _ =>
    refine ⟨none, none, textWith_refuses hcs ?_, textWith_refuses hds ?_, .none⟩
    · intro _ h
      cases h
    · intro _ h
      cases h

theorem whole_respects {low high : Int} {expected : String} :
    (whole low high expected).Respects Eq := by
  intro t u cs ds htu hcs hds depth
  cases htu with
  | number l =>
    cases hcs with
    | number hl =>
      cases hds with
      | number => exact ⟨_, _, whole_makes hl, whole_makes hl, rel_of_eq (fun _ => rfl) rfl⟩
  | _ =>
    refine ⟨none, none, whole_refuses hcs ?_, whole_refuses hds ?_, .none⟩
    · intro _ h
      cases h
    · intro _ h
      cases h

theorem value_respects : value.Respects Eq := by
  intro t u cs ds htu hcs hds depth
  exact ⟨_, _, value_makes hcs, value_makes hds, rel_of_eq (fun _ => rfl) (htu.value?_eq depth)⟩

/-- The same value is read from two texts, or none from either. -/
def Agree (s s' : String) : Prop := (Json.parse s).toOption = (Json.parse s').toOption

/-- The texts that are kept are those of reordered trees. -/
theorem raw_respects : raw.Respects Agree := by
  intro t u cs ds htu hcs hds depth
  have htext {t : Tree} {cs : List Char} (h : Spells t cs) : IsText t (String.ofList cs) :=
    ⟨[], cs, [], nofun, h, nofun, by rw [List.append_nil, String.toList_ofList]; rfl⟩
  refine ⟨_, _, raw_makes hcs, raw_makes hds, .some ?_⟩
  unfold Agree
  rw [toOption_parse (htext hcs), toOption_parse (htext hds), htu.value?_eq]

/-! ## Lists -/

theorem makesItems_respects (hd : d.Respects R) {ts us : List Tree} (htu : ReordersItems ts us)
    {first : Bool} {ds es : List Char} (hds : SpellsItems first ts ds)
    (hes : SpellsItems first us es) : ∃ o p, MakesItems d first ds depth o ∧
      MakesItems d first es depth p ∧ Option.Rel (List.Forall₂ R) o p := by
  induction ts generalizing us first ds es with
  | nil =>
    cases htu
    cases hds with
    | nil hb =>
      cases hes with
      | nil hb' => exact ⟨_, _, makesItems_nil hb, makesItems_nil hb', .some .nil⟩
  | cons t ts ih =>
    cases htu with
    | cons htu hrest =>
      cases hds with
      | cons hsep ht hts =>
        cases hes with
        | cons hsep' hu hus =>
          obtain ⟨o, p, ho, hp, hrel⟩ := hd htu ht hu depth
          obtain ⟨os, ps, hos, hps, hrels⟩ := ih hrest hts hus
          have hends {v : List Tree} {ds : List Char} (h : SpellsItems false v ds)
              (tail : List Char) : EndsValue (ds ++ ']' :: tail) :=
            Reader.endsValue_items h (Reader.endsValue_bracket tail)
          refine ⟨_, _, makesItems_cons hsep ht (hends hts) ho hos,
            makesItems_cons hsep' hu (hends hus) hp hps, ?_⟩
          exact rel_bind hrel fun x y hxy => rel_map hrels fun xs ys hxys => .cons hxy hxys

theorem list_respects (hd : d.Respects R) : (list d).Respects (List.Forall₂ R) := by
  intro t u cs ds htu hcs hds depth
  cases htu with
  | array hitems =>
    cases hcs with
    | array hts =>
      cases hds with
      | array hus =>
        cases depth with
        | zero => exact ⟨none, none, list_makes_zero rfl, list_makes_zero rfl, .none⟩
        | succ depth =>
          obtain ⟨o, p, ho, hp, hrel⟩ := makesItems_respects hd hitems hts hus
          exact ⟨o, p, list_makes ho, list_makes hp, hrel⟩
  | _ =>
    refine ⟨none, none, list_refuses hcs ?_, list_refuses hds ?_, .none⟩
    · intro _ h
      cases h
    · intro _ h
      cases h

/-! ## Fields -/

variable {fields : List (Field α)}

/-- Two stores take related records to related ones. -/
def Lifted (R : α → α → Prop) (s s' : α → α) : Prop := ∀ a a', R a a' → R (s a) (s' a')

/-- A field respects a relation if its decoder respects one that its store takes to it. -/
theorem stored_respects {d : Decoder β} {store : α → β → α} (hd : d.Respects S)
    (h : ∀ b b', S b b' → ∀ a a', R a a' → R (store a b) (store a' b')) :
    (d.map fun b a => store a b).Respects (Lifted R) :=
  hd.map h

/-- A field is stored so, if it was read from some text. -/
def Field.Gives (f : Field α) (s : α → α) : Prop := ∃ c c', f.decoder.read c = .ok s c'

theorem Makes.gives {f : Field α} {s : α → α} (h : f.decoder.Makes cs depth (some s)) :
    f.Gives s := by
  let c : Cursor := ⟨cs, 1, 0, depth + 1, 2 * cs.length + 1⟩
  obtain ⟨c', hrun, -⟩ := h [] [] nofun Reader.endsValue_nil c (List.append_nil cs).symm
    (Nat.lt_succ_self _) rfl
  exact ⟨c, c', hrun⟩

/-- Whichever of two fields is stored first, the record is the same in the end. -/
def Apart (f g : Field α) : Prop :=
  ∀ s s', f.Gives s → g.Gives s' → ∀ a, s (s' a) = s' (s a)

/-- Fields that are stored in different places. -/
theorem apart_of_stores {γ : Type} {name name' : String} {required required' : Bool}
    {d : Decoder β} {d' : Decoder γ} {store : α → β → α} {store' : α → γ → α}
    (h : ∀ a b b', store (store' a b') b = store' (store a b) b') :
    Apart ⟨name, required, d.map fun b a => store a b⟩
      ⟨name', required', d'.map fun b a => store' a b⟩ := by
  rintro s s' ⟨c, c₁, hrun⟩ ⟨c', c₂, hrun'⟩ a
  obtain ⟨b, _, -, hb⟩ := Reader.of_bind_ok hrun
  obtain ⟨b', _, -, hb'⟩ := Reader.of_bind_ok hrun'
  cases hb
  cases hb'
  exact h a b b'

theorem Apart.symm {f g : Field α} (h : Apart f g) : Apart g f :=
  fun s s' hs hs' a => (h s' s hs' hs a).symm

theorem apart_of_pairwise (h : fields.Pairwise Apart) {f g : Field α} (hf : f ∈ fields)
    (hg : g ∈ fields) (hname : f.name ≠ g.name) : Apart f g := by
  induction h with
  | nil => cases hf
  | @cons a rest hfirst _ ih =>
    rcases List.mem_cons.mp hf with hf | hf
    · rcases List.mem_cons.mp hg with hg | hg
      · exact absurd (by rw [hf, hg]) hname
      · exact hf ▸ hfirst g hg
    · rcases List.mem_cons.mp hg with hg | hg
      · exact hg ▸ (hfirst f hf).symm
      · exact ih hf hg

/-! ## Entries -/

namespace Entry

/-- Entries that do related things. -/
inductive Rel (R : α → α → Prop) : Entry α → Entry α → Prop
  | refused : Rel R refused refused
  | unknown : Rel R unknown unknown
  | field (name : String) {o p : Option (α → α)} : Option.Rel (Lifted R) o p →
    Rel R (field name o) (field name p)

/-- Related entries put into related records. -/
theorem put_rel {e e' : Entry α} (h : Rel R e e') {seen : Finset String} {a a' : α}
    (ha : R a a') :
    Option.Rel (fun p q => p.1 = q.1 ∧ R p.2 q.2) (e.put (seen, a)) (e'.put (seen, a')) := by
  cases h with
  | refused => exact .none
  | unknown => exact .some ⟨rfl, ha⟩
  | field name hstore =>
    simp only [put]
    split
    · exact .none
    · exact rel_map hstore fun s s' hs => ⟨rfl, hs a a' ha⟩

/-- What is stored was read by a field of that name. -/
def IsOf (fields : List (Field α)) (e : Entry α) : Prop :=
  ∀ name s, e = field name (some s) → ∃ f ∈ fields, f.name = name ∧ f.Gives s

/-- Two entries may change their places. -/
theorem put_comm (hfields : fields.Pairwise Apart) {x y : Entry α} (hx : x.IsOf fields)
    (hy : y.IsOf fields) (p : Filled α) : (x.put p).bind y.put = (y.put p).bind x.put := by
  obtain ⟨seen, a⟩ := p
  cases x with
  | refused => exact (Option.bind_fun_none _).symm
  | unknown => exact (Option.bind_fun_some _).symm
  | field name o =>
    cases y with
    | refused => exact Option.bind_fun_none _
    | unknown => exact Option.bind_fun_some _
    | field name' o' =>
      -- only if both are stored does it matter where
      have hboth (s s' : α → α) (ho : o = some s) (ho' : o' = some s') (hne : name ≠ name') :
          s' (s a) = s (s' a) := by
        obtain ⟨f, hf, rfl, hs⟩ := hx name s (by rw [ho])
        obtain ⟨g, hg, rfl, hs'⟩ := hy name' s' (by rw [ho'])
        exact (apart_of_pairwise hfields hf hg hne s s' hs hs' a).symm
      by_cases hsame : name = name'
      · subst hsame
        cases o <;> cases o' <;> by_cases hin : name ∈ seen <;> simp [put, hin]
      · cases o <;> cases o' <;> by_cases hin : name ∈ seen <;> by_cases hin' : name' ∈ seen <;>
          simp [put, hin, hin', hsame, Ne.symm hsame]
        exact ⟨Finset.insert_comm _ _ _, hboth _ _ rfl rfl hsame⟩

end Entry

/-- **The order of entries does not matter.** -/
theorem fill_perm (hfields : fields.Pairwise Apart) {es es' : List (Entry α)} (h : es.Perm es')
    (hes : ∀ e ∈ es, e.IsOf fields) (z : Option (Filled α)) : fill es z = fill es' z := by
  refine h.foldl_eq' (fun x hx y hy z => ?_) z
  rw [Option.bind_assoc, Option.bind_assoc]
  exact Option.bind_congr fun p _ => Entry.put_comm hfields (hes x hx) (hes y hy) p

theorem fill_rel {es es' : List (Entry α)} (h : List.Forall₂ (Entry.Rel R) es es')
    {z z' : Option (Filled α)} (hz : Option.Rel (fun p q => p.1 = q.1 ∧ R p.2 q.2) z z') :
    Option.Rel (fun p q => p.1 = q.1 ∧ R p.2 q.2) (fill es z) (fill es' z') := by
  induction h generalizing z z' with
  | nil => exact hz
  | cons hentry _ ih =>
    refine ih (rel_bind hz ?_)
    rintro ⟨seen, a⟩ ⟨_, a'⟩ ⟨rfl, ha⟩
    exact Entry.put_rel hentry ha

theorem complete_rel {p q : Filled α} (h : p.1 = q.1 ∧ R p.2 q.2) :
    Option.Rel R (complete fields p) (complete fields q) := by
  unfold complete
  rw [h.1]
  split
  · exact .some h.2
  · exact .none

/-! ## Objects -/

/-- A member as it stands in a text: the parts of its name, and the text of its value. -/
def SpelledAs (m : List Piece × Tree) (s : List Piece × List Char) : Prop :=
  m.1 = s.1 ∧ Spells m.2 s.2

theorem Enters.isOf {s : List Piece × List Char} {e : Entry α} (h : Enters fields depth s e) :
    e.IsOf fields := by
  intro name store he
  cases h with
  | refused => cases he
  | unknown => cases he
  | field _ hfound hmakes =>
    cases he
    exact ⟨_, List.mem_of_find?_eq_some hfound, rfl, hmakes.gives⟩

theorem isOf_of_enters {ss : List (List Piece × List Char)} {es : List (Entry α)}
    (h : List.Forall₂ (Enters fields depth) ss es) : ∀ e ∈ es, e.IsOf fields := by
  induction h with
  | nil =>
    intro e he
    cases he
  | cons hentry _ ih =>
    intro e he
    rcases List.mem_cons.mp he with rfl | he
    · exact hentry.isOf
    · exact ih e he

/-- Members of one name with reordered values do related things. -/
theorem enters_rel (hfields : ∀ f ∈ fields, f.decoder.Respects (Lifted R)) (htu : Reorders t u)
    (hcs : Spells t cs) (hds : Spells u ds) (pieces : List Piece) (depth : Nat) :
    ∃ e e', Enters fields depth (pieces, cs) e ∧ Enters fields depth (pieces, ds) e' ∧
      Entry.Rel R e e' := by
  cases hname : unescape pieces with
  | none => exact ⟨_, _, .refused hname, .refused hname, .refused⟩
  | some xs =>
    cases hfound : fields.find? fun f => f.name == String.ofList xs with
    | none => exact ⟨_, _, .unknown hname hfound hcs, .unknown hname hfound hds, .unknown⟩
    | some f =>
      obtain ⟨o, p, ho, hp, hrel⟩ :=
        hfields f (List.mem_of_find?_eq_some hfound) htu hcs hds depth
      exact ⟨_, _, .field hname hfound ho, .field hname hfound hp, .field f.name hrel⟩

/-- Members one by one, before and after their values are reordered. -/
theorem enters_all (hfields : ∀ f ∈ fields, f.decoder.Respects (Lifted R))
    {ms ns : List (List Piece × Tree)} (h : ReordersMembers ms ns)
    {ss ss' : List (List Piece × List Char)} (hss : List.Forall₂ SpelledAs ms ss)
    (hss' : List.Forall₂ SpelledAs ns ss') (depth : Nat) :
    ∃ es es', List.Forall₂ (Enters fields depth) ss es ∧
      List.Forall₂ (Enters fields depth) ss' es' ∧ List.Forall₂ (Entry.Rel R) es es' := by
  induction ms generalizing ns ss ss' with
  | nil =>
    cases h
    cases hss
    cases hss'
    exact ⟨[], [], .nil, .nil, .nil⟩
  | cons m ms ih =>
    cases h with
    | cons htu hrest =>
      cases hss with
      | @cons _ s _ _ hs hss =>
        cases hss' with
        | @cons _ s' _ _ hs' hss' =>
          obtain ⟨_, cs⟩ := s
          obtain ⟨_, ds⟩ := s'
          obtain ⟨rfl, hcs⟩ := hs
          obtain ⟨rfl, hds⟩ := hs'
          obtain ⟨e, e', he, he', hrel⟩ := enters_rel hfields htu hcs hds _ depth
          obtain ⟨es, es', hes, hes', hrels⟩ := ih hrest hss hss'
          exact ⟨e :: es, e' :: es', .cons he hes, .cons he' hes', .cons hrel hrels⟩

/-- Members in the order in which they stand in a text. -/
theorem makesMembers (fields : List (Field α)) (depth : Nat) {first : Bool}
    {ms : List (List Piece × Tree)} {ds : List Char} (h : SpellsMembers first ms ds) :
    ∃ ss, List.Forall₂ SpelledAs ms ss ∧
      ∀ es : List (Entry α), List.Forall₂ (Enters fields depth) ss es →
        MakesMembers fields first ds depth es := by
  induction ms generalizing first ds with
  | nil =>
    cases h with
    | nil hb =>
      refine ⟨[], .nil, fun es hes => ?_⟩
      cases hes
      exact makesMembers_nil hb
  | cons m ms ih =>
    cases h with
    | cons hsep hm hrest =>
      obtain @⟨b, a', cs, pieces, t, hwf, hb, ha', ht⟩ := hm
      have hends (tail : List Char) := Reader.endsValue_members hrest (Reader.endsValue_brace tail)
      obtain ⟨ss, hss, hmakes⟩ := ih hrest
      refine ⟨(pieces, cs) :: ss, .cons ⟨rfl, ht⟩ hss, fun es hes => ?_⟩
      cases hes with
      | cons he hes => exact makesMembers_cons hsep hwf hb ha' hends he (hmakes _ hes)

/-- Members with their texts, in another order. -/
theorem makesMembers_respects (hfields : ∀ f ∈ fields, f.decoder.Respects (Lifted R))
    (hapart : fields.Pairwise Apart) {start : α} (hstart : R start start)
    {ms ls ns : List (List Piece × Tree)} (hperm : ms.Perm ls) (hvalues : ReordersMembers ls ns)
    {ds ds' : List Char} (hds : SpellsMembers true ms ds) (hds' : SpellsMembers true ns ds') :
    ∃ es es', MakesMembers fields true ds depth es ∧ MakesMembers fields true ds' depth es' ∧
      Option.Rel R ((fill es (some (∅, start))).bind (complete fields))
        ((fill es' (some (∅, start))).bind (complete fields)) := by
  obtain ⟨ss, hss, hmakes⟩ := makesMembers fields depth hds
  obtain ⟨ss', hss', hmakes'⟩ := makesMembers fields depth hds'
  -- the texts of the members are put into the other order first, and then the values are reordered
  obtain ⟨ss₁, hss₁, hperm₁⟩ := List.perm_comp_forall₂ hperm.symm hss
  obtain ⟨es₁, es', hes₁, hes', hrel⟩ := enters_all hfields hvalues hss₁ hss' depth
  obtain ⟨es, hes, hperm₂⟩ := List.perm_comp_forall₂ hperm₁.symm hes₁
  refine ⟨es, es', hmakes es hes, hmakes' es' hes', ?_⟩
  rw [fill_perm hapart hperm₂ (isOf_of_enters hes)]
  exact rel_bind (fill_rel hrel (.some ⟨rfl, hstart⟩)) fun p q h => complete_rel h

/-! ## Arrays that stand for records -/

variable {kind : String} {total n : Nat}

theorem makesPositions_ends {a a' : α} (ha : R a a') {b b' : List Char} (hb : Blanks b)
    (hb' : Blanks b') : ∃ o p, MakesPositions kind total fields n a b depth o ∧
      MakesPositions kind total fields n a' b' depth p ∧ Option.Rel R o p := by
  refine ⟨_, _, makesPositions_end hb, makesPositions_end hb', ?_⟩
  split
  · exact .none
  · exact .some ha

theorem makesPositions_respects (hfields : ∀ f ∈ fields, f.decoder.Respects (Lifted R))
    {ts us : List Tree} (htu : ReordersItems ts us) {n : Nat} {a a' : α} (ha : R a a')
    {ds ds' : List Char} (hds : SpellsItems (decide (n = 0)) ts ds)
    (hds' : SpellsItems (decide (n = 0)) us ds') :
    ∃ o p, MakesPositions kind total fields n a ds depth o ∧
      MakesPositions kind total fields n a' ds' depth p ∧ Option.Rel R o p := by
  induction fields generalizing ts us n a a' ds ds' with
  | nil =>
    cases htu with
    | nil =>
      cases hds with
      | nil hb =>
        cases hds' with
        | nil hb' => exact makesPositions_ends ha hb hb'
    | cons =>
      cases hds with
      | cons hsep ht =>
        cases hds' with
        | cons hsep' hu =>
          exact ⟨_, _, makesPositions_more hsep ht, makesPositions_more hsep' hu, .none⟩
  | cons f fields ih =>
    cases htu with
    | nil =>
      cases hds with
      | nil hb =>
        cases hds' with
        | nil hb' => exact makesPositions_ends ha hb hb'
    | cons htu hrest =>
      cases hds with
      | cons hsep ht hts =>
        cases hds' with
        | cons hsep' hu hus =>
          obtain ⟨s, s', hs, hs', hstores⟩ := hfields f (.head _) htu ht hu depth
          cases hstores with
          | none =>
            refine ⟨_, _, makesPositions_cons (fun _ => none) hsep ht hts hs ?_,
              makesPositions_cons (fun _ => none) hsep' hu hus hs' ?_, .none⟩
            · rintro _ ⟨⟩
            · rintro _ ⟨⟩
          | @some store store' hstore =>
            have hfirst : decide (n + 1 = 0) = false := decide_eq_false (Nat.succ_ne_zero n)
            obtain ⟨o, p, ho, hp, hrel⟩ := ih (fun g hg => hfields g (.tail _ hg)) hrest
              (hstore a a' ha) (hfirst ▸ hts) (hfirst ▸ hus)
            refine ⟨_, _, makesPositions_cons (fun _ => o) hsep ht hts hs ?_,
              makesPositions_cons (fun _ => p) hsep' hu hus hs' ?_, hrel⟩
            · rintro _ ⟨⟩
              exact ho
            · rintro _ ⟨⟩
              exact hp

/-! ## Records -/

/-- **A record respects a relation if its fields do**, and they are stored in different places. -/
theorem record_respects (kind : String) {start : α} (hstart : R start start)
    (hfields : ∀ f ∈ fields, f.decoder.Respects (Lifted R)) (hapart : fields.Pairwise Apart) :
    (record kind start fields).Respects R := by
  intro t u cs ds htu hcs hds depth
  cases htu with
  | array hitems =>
    cases hcs with
    | array hts =>
      cases hds with
      | array hus =>
        cases depth with
        | zero => exact ⟨none, none, record_makes_zero rfl, record_makes_zero rfl, .none⟩
        | succ depth =>
          obtain ⟨o, p, ho, hp, hrel⟩ :=
            makesPositions_respects (n := 0) hfields hitems hstart hts hus
          exact ⟨o, p, record_makes_array ho, record_makes_array hp, hrel⟩
  | object _ hperm hvalues =>
    cases hcs with
    | object hms =>
      cases hds with
      | object hns =>
        cases depth with
        | zero => exact ⟨none, none, record_makes_zero rfl, record_makes_zero rfl, .none⟩
        | succ depth =>
          obtain ⟨es, es', hes, hes', hrel⟩ :=
            makesMembers_respects hfields hapart hstart hperm hvalues hms hns
          exact ⟨_, _, record_makes_object hes, record_makes_object hes', hrel⟩
  | _ =>
    refine ⟨none, none, record_refuses hcs ?_ ?_, record_refuses hds ?_ ?_, .none⟩
    all_goals
      intro _ h
      cases h

end ScriptedActions.Json.Decoder
