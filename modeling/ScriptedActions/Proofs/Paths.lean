import ScriptedActions.Files.Path

/-!
# Laws of paths

A name that is neither empty nor made of one or two dots, and has no slash in it, is one step of a
path. Joining such a name to a path adds this step and changes nothing else (`Path.parts_join`),
whatever the path looks like: empty, with slashes at its end, or going up.

A name is split at its last dot. What comes of it is told by the two parts alone
(`Path.splitName_eq_some`).
-/

set_option autoImplicit false

namespace ScriptedActions.Path

/-- A name that is a step of its own in a path. -/
structure IsName (n : String) : Prop where
  nonempty : n ≠ ""
  notHere : n ≠ "."
  notUp : n ≠ ".."
  noSlash : '/' ∉ n.toList

instance (n : String) : Decidable (IsName n) :=
  decidable_of_iff (n ≠ "" ∧ n ≠ "." ∧ n ≠ ".." ∧ '/' ∉ n.toList)
    ⟨fun ⟨h, h', h'', hslash⟩ => ⟨h, h', h'', hslash⟩,
      fun h => ⟨h.nonempty, h.notHere, h.notUp, h.noSlash⟩⟩

variable {p : Path} {n : String}

/-! ## Segments -/

theorem segmentsOf_ne_nil (cs : List Char) : segmentsOf cs ≠ [] := by
  cases cs with
  | nil => simp [segmentsOf]
  | cons c cs =>
    unfold segmentsOf
    split
    · simp
    · split <;> simp

theorem segmentsOf_slash (cs : List Char) : segmentsOf ('/' :: cs) = [] :: segmentsOf cs := rfl

theorem segmentsOf_cons {c : Char} (hc : c ≠ '/') {cs s : List Char} {rest : List (List Char)}
    (h : segmentsOf cs = s :: rest) : segmentsOf (c :: cs) = (c :: s) :: rest := by
  unfold segmentsOf
  rw [if_neg hc, h]

theorem segmentsOf_of_noSlash {cs : List Char} (h : '/' ∉ cs) : segmentsOf cs = [cs] := by
  induction cs with
  | nil => rfl
  | cons c cs ih =>
    have hc : c ≠ '/' := fun hc => h (hc ▸ List.mem_cons_self)
    exact segmentsOf_cons hc (ih fun hcs => h (.tail _ hcs))

theorem segmentsOf_append (cs ds : List Char) :
    segmentsOf (cs ++ '/' :: ds) = segmentsOf cs ++ segmentsOf ds := by
  induction cs with
  | nil => rfl
  | cons c cs ih =>
    rw [List.cons_append]
    by_cases hc : c = '/'
    · rw [hc, segmentsOf_slash, segmentsOf_slash, ih, List.cons_append]
    · obtain ⟨s, rest, hcs⟩ := List.exists_cons_of_ne_nil (segmentsOf_ne_nil cs)
      rw [hcs] at ih
      rw [segmentsOf_cons hc ih, segmentsOf_cons hc hcs]
      rfl

/-! ## Joining -/

theorem isAbsolute_of_noSlash (h : '/' ∉ n.toList) : (Path.mk n).isAbsolute = false := by
  unfold isAbsolute
  cases hn : n.toList with
  | nil => rfl
  | cons c cs =>
    rw [hn] at h
    have hc : c ≠ '/' := fun hc => h (hc ▸ List.mem_cons_self)
    simpa using hc

/-- A slash comes between a path and a name unless there is one. -/
theorem toList_join (hp : p.text ≠ "") (hn : IsName n) :
    (p.join n).text.toList = p.text.toList ++ '/' :: n.toList ∨
    ∃ front, p.text.toList = front ++ ['/'] ∧ (p.join n).text.toList = front ++ '/' :: n.toList := by
  unfold join
  rw [isAbsolute_of_noSlash hn.noSlash, if_neg Bool.false_ne_true]
  split
  case h_1 hlast => exact absurd (String.toList_eq_nil_iff.mp (List.getLast?_eq_none_iff.mp hlast)) hp
  case h_2 hlast =>
    obtain ⟨front, hfront⟩ := List.getLast?_eq_some_iff.mp hlast
    exact .inr ⟨front, hfront, by simp [String.toList_append, hfront]⟩
  case h_3 => exact .inl (by simp [String.toList_append])

theorem text_join_of_empty (hp : p.text = "") (hn : IsName n) : (p.join n).text = n := by
  unfold join
  rw [isAbsolute_of_noSlash hn.noSlash, if_neg Bool.false_ne_true, hp]
  rfl

theorem text_join_ne_empty (hn : IsName n) : (p.join n).text ≠ "" := by
  by_cases hp : p.text = ""
  · rw [text_join_of_empty hp hn]
    exact hn.nonempty
  · intro hempty
    rcases toList_join hp hn with h | ⟨front, -, h⟩ <;> simp [hempty] at h

theorem isAbsolute_join (hp : p.text ≠ "") (hn : IsName n) :
    (p.join n).isAbsolute = p.isAbsolute := by
  unfold isAbsolute
  rcases toList_join hp hn with h | ⟨front, hfront, h⟩
  · obtain ⟨c, cs, hcons⟩ :=
      List.exists_cons_of_ne_nil fun h => hp (String.toList_eq_nil_iff.mp h)
    rw [h, hcons]
    rfl
  · rw [h, hfront]
    cases front <;> rfl

/-- The name is the last segment, behind those of the path; an empty one at their end gives way. -/
theorem segments_join (hp : p.text ≠ "") (hn : IsName n) :
    ∃ front, front ≠ [] ∧ (p.segments = front ∨ p.segments = front ++ [""]) ∧
      (p.join n).segments = front ++ [n] := by
  unfold segments
  have hname : segmentsOf n.toList = [n.toList] := segmentsOf_of_noSlash hn.noSlash
  have hne (cs : List Char) : (segmentsOf cs).map String.ofList ≠ [] :=
    mt List.map_eq_nil_iff.mp (segmentsOf_ne_nil cs)
  rcases toList_join hp hn with h | ⟨front, hfront, h⟩
  · refine ⟨_, hne p.text.toList, .inl rfl, ?_⟩
    rw [h, segmentsOf_append, hname, List.map_append, List.map_singleton, String.ofList_toList]
  · refine ⟨_, hne front, .inr ?_, ?_⟩
    · rw [hfront, segmentsOf_append, List.map_append]
      rfl
    · rw [h, segmentsOf_append, hname, List.map_append, List.map_singleton, String.ofList_toList]

theorem Part.ofSegment?_name (isFirst : Bool) (hn : IsName n) :
    Part.ofSegment? isFirst n = some (.name n) := by
  unfold Part.ofSegment?
  rw [if_neg hn.nonempty, if_neg hn.notHere, if_neg hn.notUp]

/-- **A name that is joined to a path is one more step.** -/
theorem parts_join (p : Path) (hn : IsName n) : (p.join n).parts = p.parts ++ [.name n] := by
  by_cases hp : p.text = ""
  · have hjoin : p.join n = ⟨n⟩ := congrArg Path.mk (text_join_of_empty hp hn)
    have hempty : p = ⟨""⟩ := congrArg Path.mk hp
    have hsegments : (Path.mk n).segments = [n] := by
      unfold segments
      rw [segmentsOf_of_noSlash hn.noSlash, List.map_singleton, String.ofList_toList]
    rw [hjoin, hempty]
    unfold parts
    rw [hsegments, isAbsolute_of_noSlash hn.noSlash]
    simp only [Bool.false_eq_true, if_false, Part.ofSegment?_name true hn]
    rfl
  · obtain ⟨front, hne, hsegments, hjoined⟩ := segments_join hp hn
    obtain ⟨s, rest, rfl⟩ := List.exists_cons_of_ne_nil hne
    have hlast : (rest ++ [n]).filterMap (Part.ofSegment? false) =
        rest.filterMap (Part.ofSegment? false) ++ [.name n] := by
      rw [List.filterMap_append, List.filterMap_cons_some (Part.ofSegment?_name false hn),
        List.filterMap_nil]
    unfold parts
    rw [hjoined, isAbsolute_join hp hn]
    rcases hsegments with hsegments | hsegments
    · rw [hsegments]
      simp only [List.cons_append, hlast, List.append_assoc]
    · have hempty : (rest ++ [""]).filterMap (Part.ofSegment? false) =
          rest.filterMap (Part.ofSegment? false) := by
        rw [List.filterMap_append]
        exact List.append_nil _
      rw [hsegments]
      simp only [List.cons_append, hlast, hempty, List.append_assoc]

theorem fileName?_join (p : Path) (hn : IsName n) : (p.join n).fileName? = some n := by
  unfold fileName?
  rw [parts_join p hn, List.getLast?_concat]
  rfl

theorem directoryName?_join (p : Path) {a : String} (ha : IsName a) (hn : IsName n) :
    ((p.join a).join n).directoryName? = some a := by
  unfold directoryName?
  rw [parts_join _ hn, List.dropLast_concat, parts_join _ ha, List.getLast?_concat]
  rfl

/-! ## Extensions -/

theorem takeWhile_noDot {cs : List Char} (h : '.' ∉ cs) (ds : List Char) :
    (cs.reverse ++ ds).takeWhile (· != '.') = cs.reverse ++ ds.takeWhile (· != '.') := by
  refine List.takeWhile_append_of_pos fun c hc => ?_
  exact bne_iff_ne.mpr fun hdot => h (hdot ▸ List.mem_reverse.mp hc)

theorem takeWhile_reverse {s e : List Char} (he : '.' ∉ e) :
    (s ++ '.' :: e).reverse.takeWhile (· != '.') = e.reverse := by
  have hreverse : (s ++ '.' :: e).reverse = e.reverse ++ '.' :: s.reverse := by simp
  rw [hreverse, takeWhile_noDot he]
  exact List.append_nil _

theorem splitName_of_append {name : String} {s e : List Char} (hname : name.toList = s ++ '.' :: e)
    (hs : s ≠ []) (he : '.' ∉ e) : splitName name = (String.ofList s, some (String.ofList e)) := by
  have hlength : (s ++ '.' :: e).length = s.length + (e.length + 1) := by simp
  have htake : (s ++ '.' :: e).take (s.length + (e.length + 1) - e.length - 1) = s := by
    rw [show s.length + (e.length + 1) - e.length - 1 = s.length by omega, List.take_left]
  unfold splitName
  simp only [hname, takeWhile_reverse he, List.length_reverse, hlength, htake, List.reverse_reverse]
  rw [if_neg]
  rintro (h | h)
  · omega
  · exact hs (List.isEmpty_iff.mp h)

theorem splitName_of_noDot {name : String} (h : '.' ∉ name.toList) :
    splitName name = (name, none) := by
  have hall : name.toList.reverse.takeWhile (· != '.') = name.toList.reverse := by
    have hplain := takeWhile_noDot h []
    rwa [List.append_nil, List.takeWhile_nil, List.append_nil] at hplain
  unfold splitName
  simp only [hall]
  rw [if_pos (.inl List.length_reverse.symm)]

theorem splitName_of_leadingDot {name : String} {e : List Char} (hname : name.toList = '.' :: e)
    (he : '.' ∉ e) : splitName name = (name, none) := by
  have hafter : ('.' :: e).reverse.takeWhile (· != '.') = e.reverse :=
    takeWhile_reverse (s := []) he
  unfold splitName
  simp only [hname, hafter]
  rw [if_pos (.inr (by simp))]

theorem exists_split {name : String} (h : (splitName name).2.isSome) :
    ∃ s e, name.toList = s ++ '.' :: e ∧ s ≠ [] ∧ '.' ∉ e := by
  by_cases hdot : '.' ∈ name.toList
  · obtain ⟨e, s, hreverse, he⟩ := List.eq_append_cons_of_mem (List.mem_reverse.mpr hdot)
    have hname : name.toList = s.reverse ++ '.' :: e.reverse := by
      rw [← List.reverse_reverse name.toList, hreverse]
      simp
    have he' : '.' ∉ e.reverse := fun h => he (List.mem_reverse.mp h)
    refine ⟨s.reverse, e.reverse, hname, fun hs => ?_, he'⟩
    rw [hs, List.nil_append] at hname
    rw [splitName_of_leadingDot hname he'] at h
    cases h
  · rw [splitName_of_noDot hdot] at h
    cases h

/-- **A name is split at a dot that has something in front of it and no dot behind it.** -/
theorem splitName_eq_some {name stem extension : String} :
    splitName name = (stem, some extension) ↔
      name = stem ++ "." ++ extension ∧ stem ≠ "" ∧ '.' ∉ extension.toList := by
  have hlists : name = stem ++ "." ++ extension ↔
      name.toList = stem.toList ++ '.' :: extension.toList := by
    rw [← String.toList_inj, String.toList_append, String.toList_append, List.append_assoc]
    rfl
  rw [hlists]
  constructor
  · intro h
    have hsome : (splitName name).2.isSome := by rw [h]; rfl
    obtain ⟨s, e, hname, hs, he⟩ := exists_split hsome
    rw [splitName_of_append hname hs he] at h
    cases h
    simp only [String.toList_ofList]
    exact ⟨hname, fun h => hs (String.ofList_eq_empty_iff.mp h), he⟩
  · rintro ⟨hname, hstem, hextension⟩
    rw [splitName_of_append hname (fun h => hstem (String.toList_eq_nil_iff.mp h)) hextension,
      String.ofList_toList, String.ofList_toList]

end ScriptedActions.Path
