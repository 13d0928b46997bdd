import ScriptedActions.Files.FileTree
import ScriptedActions.Proofs.Paths
import ScriptedActions.Proofs.Table

/-!
# Laws of trees of files

A path that gets one more name means what stands under this name in the directory that the path
meant (`Files.find_join_of_dir`), and nothing if it meant no directory
(`Files.exists_dir_of_locate_join`). The text of the path plays no part in it beyond its length, so
what a search finds step by step is what the whole path means.

File systems keep two rules that a tree of this type need not: a directory lists no name twice, and
its names are steps of their own in a path. A tree that keeps them is proper.
-/

set_option autoImplicit false

namespace ScriptedActions

namespace FileTree

theorem get?_dir (es : List (String × FileTree)) (n : String) :
    (dir es).get? [n] = Table.get? es n := by
  unfold get?
  cases Table.get? es n <;> rfl

theorem get?_append (t : FileTree) (way below : List String) :
    t.get? (way ++ below) = (t.get? way).bind fun u => u.get? below := by
  induction way generalizing t with
  | nil => cases t <;> rfl
  | cons n way ih =>
    cases t with
    | dir es =>
      show (Table.get? es n).bind (fun t => t.get? (way ++ below)) =
        ((Table.get? es n).bind fun t => t.get? way).bind fun u => u.get? below
      cases Table.get? es n with
      | none => rfl
      | some u => exact ih u
    | file _ | locked _ | other _ => rfl

theorem kind_eq_directory {t : FileTree} (h : t.kind = .directory) :
    (∃ es, t = dir es) ∨ t = locked true := by
  cases t with
  | dir es => exact .inl ⟨es, rfl⟩
  | locked isDirectory =>
    cases isDirectory with
    | true => exact .inr rfl
    | false => cases h
  | file _ | other _ => cases h

/-! ## Proper trees -/

mutual

/-- Whether directories list names that are steps of a path, and none of them twice. -/
def isProper : FileTree → Bool
  | dir es => decide (es.map Prod.fst).Nodup && areProper es
  | _ => true

/-- Whether the entries of a directory are proper. -/
def areProper : List (String × FileTree) → Bool
  | [] => true
  | (n, t) :: rest => decide (Path.IsName n) && t.isProper && areProper rest

end

theorem areProper_iff (es : List (String × FileTree)) :
    areProper es ↔ ∀ e ∈ es, Path.IsName e.1 ∧ e.2.isProper := by
  induction es with
  | nil => simp [areProper]
  | cons e rest ih =>
    obtain ⟨n, t⟩ := e
    simp only [areProper, Bool.and_eq_true, decide_eq_true_eq, ih, List.forall_mem_cons]

theorem isProper_dir_iff (es : List (String × FileTree)) :
    (dir es).isProper ↔
      (es.map Prod.fst).Nodup ∧ ∀ e ∈ es, Path.IsName e.1 ∧ e.2.isProper := by
  simp only [isProper, Bool.and_eq_true, decide_eq_true_eq, areProper_iff]

theorem mem_of_get? {es : List (String × FileTree)} {n : String} {t : FileTree}
    (h : Table.get? es n = some t) : (n, t) ∈ es := by
  induction es with
  | nil => cases h
  | cons e rest ih =>
    obtain ⟨m, u⟩ := e
    unfold Table.get? at h
    split at h
    case isTrue hn =>
      cases h
      exact hn ▸ .head _
    case isFalse => exact .tail _ (ih h)

theorem get?_eq_some_iff {es : List (String × FileTree)} (h : (es.map Prod.fst).Nodup)
    (n : String) (t : FileTree) : Table.get? es n = some t ↔ (n, t) ∈ es := by
  refine ⟨mem_of_get?, fun hmem => ?_⟩
  induction es with
  | nil => cases hmem
  | cons e rest ih =>
    obtain ⟨m, u⟩ := e
    obtain ⟨hm, hrest⟩ := List.nodup_cons.mp h
    unfold Table.get?
    rcases List.mem_cons.mp hmem with heq | hmem
    · cases heq
      exact if_pos rfl
    · have hn : n ≠ m := fun heq =>
        hm (heq ▸ List.mem_map.mpr ⟨(n, t), hmem, rfl⟩)
      rw [if_neg hn]
      exact ih hrest hmem

theorem nodup_listed {es : List (String × FileTree)} (h : (es.map Prod.fst).Nodup) :
    ((es.map fun e => (e.1, e.2.kind)).map Prod.fst).Nodup := by
  rwa [List.map_map]

/-- The table of a directory's names says what kind of thing stands under each. -/
theorem mem_listed {es : List (String × FileTree)} (h : (es.map Prod.fst).Nodup) {n : String}
    {k : Kind} : (n, k) ∈ Table.ofList (es.map fun e => (e.1, e.2.kind)) ↔
      ∃ t, (n, t) ∈ es ∧ t.kind = k := by
  rw [Table.mem_ofList_of_nodup (nodup_listed h), List.mem_map]
  constructor
  · rintro ⟨⟨m, t⟩, hmem, heq⟩
    obtain ⟨rfl, rfl⟩ := Prod.mk.inj heq
    exact ⟨t, hmem, rfl⟩
  · rintro ⟨t, hmem, rfl⟩
    exact ⟨(n, t), hmem, rfl⟩

theorem isProper_of_get? {t u : FileTree} {way : List String} (h : t.isProper)
    (hway : t.get? way = some u) : u.isProper := by
  induction way generalizing t with
  | nil =>
    cases t <;> cases hway <;> exact h
  | cons n way ih =>
    cases t with
    | dir es =>
      obtain ⟨v, hv, hbelow⟩ := Option.bind_eq_some_iff.mp hway
      exact ih (((isProper_dir_iff es).mp h).2 (n, v) (mem_of_get? hv)).2 hbelow
    | file _ | locked _ | other _ => cases hway

end FileTree

namespace Files

variable {f : Files} {p : Path} {n : String} {way : List String}

/-! ## Following -/

theorem follow_append (root : FileTree) (way segments more : List String) :
    follow root way (segments ++ more) =
      (follow root way segments).bind fun way => follow root way more := by
  induction segments generalizing way with
  | nil => rfl
  | cons s rest ih =>
    simp only [List.cons_append, follow]
    split
    · split
      · exact ih way
      · split
        · exact ih way.tail
        · split
          · rfl
          · split
            · exact ih (s :: way)
            · rfl
    · split
      · exact ih way
      · rfl
    · rfl

theorem follow_append_eq_ok {root : FileTree} {segments more way' : List String} :
    follow root way (segments ++ more) = .ok way' ↔
      ∃ between, follow root way segments = .ok between ∧ follow root between more = .ok way' := by
  rw [follow_append]
  cases follow root way segments with
  | error e => simp [Except.bind]
  | ok between => simp [Except.bind]

/-- What a segment can do on a way that is followed. -/
inductive Step (root : FileTree) (way : List String) (s : String) : List String → Prop
  | stay {es : List (String × FileTree)} (hdir : root.get? way.reverse = some (.dir es))
      (hs : s = "" ∨ s = ".") : Step root way s way
  | up {es : List (String × FileTree)} (hdir : root.get? way.reverse = some (.dir es))
      (hs : s = "..") : Step root way s way.tail
  | down {es : List (String × FileTree)} (hdir : root.get? way.reverse = some (.dir es))
      (hs : ¬ (s = "" ∨ s = ".") ∧ s ≠ "..") (hshort : ¬ maxNameLength < s.utf8ByteSize)
      (hentry : Table.contains es s) : Step root way s (s :: way)
  | slash (hlocked : root.get? way.reverse = some (.locked true)) (hs : s = "") : Step root way s way

theorem follow_cons_eq_ok {root : FileTree} {s : String} {rest way' : List String} :
    follow root way (s :: rest) = .ok way' ↔
      ∃ next, Step root way s next ∧ follow root next rest = .ok way' := by
  constructor
  · intro h
    unfold follow at h
    split at h
    case h_1 hdir =>
      split at h
      case isTrue hs => exact ⟨way, .stay hdir hs, h⟩
      case isFalse hname =>
        split at h
        case isTrue hs => exact ⟨way.tail, .up hdir hs, h⟩
        case isFalse hup =>
          split at h
          case isTrue => cases h
          case isFalse hshort =>
            split at h
            case isTrue hentry => exact ⟨s :: way, .down hdir ⟨hname, hup⟩ hshort hentry, h⟩
            case isFalse => cases h
    case h_2 hlocked =>
      split at h
      case isTrue hs => exact ⟨way, .slash hlocked hs, h⟩
      case isFalse => cases h
    case h_3 => cases h
  · rintro ⟨next, hstep, h⟩
    unfold follow
    cases hstep with
    | stay hdir hs => simpa only [hdir, if_pos hs] using h
    | up hdir hs =>
      subst hs
      simpa [hdir] using h
    | down hdir hs hshort hentry =>
      simpa only [hdir, if_neg hs.1, if_neg hs.2, if_neg hshort, if_pos hentry] using h
    | slash hlocked hs => simpa only [hlocked, if_pos hs] using h

theorem eq_of_follow_empty {root : FileTree} {way' : List String}
    (h : follow root way [""] = .ok way') : way' = way := by
  obtain ⟨next, hstep, hnext⟩ := follow_cons_eq_ok.mp h
  cases hnext
  cases hstep with
  | stay => rfl
  | up _ hs => exact absurd hs (by decide)
  | down _ hs => exact absurd (.inl rfl) hs.1
  | slash => rfl

theorem follow_name {root : FileTree} {es : List (String × FileTree)} (hn : Path.IsName n)
    (h : root.get? way.reverse = some (.dir es)) :
    follow root way [n] =
      if maxNameLength < n.utf8ByteSize then .error .nameTooLong
      else if Table.contains es n then .ok (n :: way) else .error .notFound := by
  simp only [follow, h, hn.nonempty, hn.notHere, hn.notUp, or_self, if_false]

theorem exists_dir_of_follow_name {root : FileTree} {way' : List String} (hn : Path.IsName n)
    (h : follow root way [n] = .ok way') :
    ∃ es, root.get? way.reverse = some (.dir es) ∧ way' = n :: way := by
  obtain ⟨next, hstep, hnext⟩ := follow_cons_eq_ok.mp h
  cases hnext
  cases hstep with
  | stay _ hs => exact absurd hs (not_or.mpr ⟨hn.nonempty, hn.notHere⟩)
  | up _ hs => exact absurd hs hn.notUp
  | down hdir => exact ⟨_, hdir, rfl⟩
  | slash _ hs => exact absurd hs hn.nonempty

/-! ## Finding -/

theorem locate_eq_ok : f.locate p = .ok way ↔
    checkPath p = .ok () ∧ follow f.root (f.start p) p.segments = .ok way.reverse := by
  show (checkPath p).bind (fun _ => (follow f.root (f.start p) p.segments).bind fun way =>
    .ok way.reverse) = .ok way ↔ _
  cases checkPath p with
  | error e => simp [Except.bind]
  | ok _ =>
    cases follow f.root (f.start p) p.segments with
    | error e => simp [Except.bind]
    | ok reversed => simp [Except.bind, List.reverse_eq_iff]

theorem find_eq (f : Files) (p : Path) :
    f.find p = (f.locate p).bind fun way => (f.root.get? way).elim (.error .notFound) .ok := by
  unfold find
  cases f.locate p with
  | error e => rfl
  | ok way =>
    simp only [bind, Except.bind]
    cases f.root.get? way <;> rfl

theorem find_eq_ok {t : FileTree} :
    f.find p = .ok t ↔ ∃ way, f.locate p = .ok way ∧ f.root.get? way = some t := by
  rw [find_eq]
  cases f.locate p with
  | error e => simp [Except.bind]
  | ok way => cases hroot : f.root.get? way <;> simp [Except.bind, hroot]

theorem checkPath_of_join (hp : p.text ≠ "") (hn : Path.IsName n)
    (h : checkPath (p.join n) = .ok ()) : checkPath p = .ok () := by
  have hlonger : ∃ rest, (p.join n).text = p.text ++ rest := by
    rcases Path.toList_join hp hn with hjoin | ⟨front, hfront, hjoin⟩
    · exact ⟨String.ofList ('/' :: n.toList), by simp [← String.toList_inj, hjoin]⟩
    · exact ⟨n, by simp [← String.toList_inj, hjoin, hfront]⟩
  obtain ⟨rest, hrest⟩ := hlonger
  unfold checkPath at h ⊢
  rw [hrest] at h
  split at h
  · cases h
  case isFalse hzero =>
    have hzero' : ¬ p.text.toList.contains '\x00' := fun hmem => hzero (by
      rw [List.contains_iff_mem] at hmem ⊢
      rw [String.toList_append]
      exact List.mem_append_left _ hmem)
    rw [if_neg hzero', if_neg (by simpa using hp)]
    split at h
    · cases h
    · split at h
      · cases h
      case isFalse hshort =>
        rw [String.utf8ByteSize_append] at hshort
        rw [if_neg (by omega)]

theorem start_join (f : Files) (hp : p.text ≠ "") (hn : Path.IsName n) :
    f.start (p.join n) = f.start p := by
  unfold start
  rw [Path.isAbsolute_join hp hn]

/-- Without the last name, the path is followed to the same place, with or without a slash at its
end. -/
theorem follow_front {front : List String}
    (hsegments : p.segments = front ∨ p.segments = front ++ [""])
    (h : follow f.root (f.start p) p.segments = .ok way) :
    follow f.root (f.start p) front = .ok way := by
  rcases hsegments with hsegments | hsegments
  · rwa [hsegments] at h
  · rw [hsegments] at h
    obtain ⟨between, hfront, hempty⟩ := follow_append_eq_ok.mp h
    rwa [eq_of_follow_empty hempty]

theorem locate_join_of_dir {es : List (String × FileTree)} (hp : p.text ≠ "") (hn : Path.IsName n)
    (hway : f.locate p = .ok way) (hdir : f.root.get? way = some (.dir es)) :
    f.locate (p.join n) = (checkPath (p.join n)).bind fun _ =>
      if maxNameLength < n.utf8ByteSize then .error .nameTooLong
      else if Table.contains es n then .ok (way ++ [n]) else .error .notFound := by
  obtain ⟨front, -, hsegments, hjoined⟩ := Path.segments_join hp hn
  obtain ⟨-, hfollow⟩ := locate_eq_ok.mp hway
  have hlast : follow f.root (f.start (p.join n)) (p.join n).segments =
      follow f.root way.reverse [n] := by
    rw [start_join f hp hn, hjoined, follow_append, follow_front hsegments hfollow]
    rfl
  show (checkPath (p.join n)).bind (fun _ => (follow f.root _ _).bind fun way => .ok way.reverse) = _
  rw [hlast, follow_name hn (by rwa [List.reverse_reverse])]
  congr 1
  funext _
  split
  · rfl
  · split
    · simp [Except.bind]
    · rfl

/-- **What stands in a directory.** -/
theorem find_join_of_dir {es : List (String × FileTree)} (hp : p.text ≠ "") (hn : Path.IsName n)
    (h : f.find p = .ok (.dir es)) :
    f.find (p.join n) = (checkPath (p.join n)).bind fun _ =>
      if maxNameLength < n.utf8ByteSize then .error .nameTooLong
      else (Table.get? es n).elim (.error .notFound) .ok := by
  obtain ⟨way, hway, hdir⟩ := find_eq_ok.mp h
  have hget : f.root.get? (way ++ [n]) = Table.get? es n := by
    rw [FileTree.get?_append, hdir, Option.bind_some, FileTree.get?_dir]
  rw [find_eq, locate_join_of_dir hp hn hway hdir]
  cases checkPath (p.join n) with
  | error e => rfl
  | ok _ =>
    simp only [Except.bind]
    by_cases hlong : maxNameLength < n.utf8ByteSize
    · rw [if_pos hlong, if_pos hlong]
    · rw [if_neg hlong, if_neg hlong]
      unfold Table.contains
      cases hn : Table.get? es n with
      | none => rfl
      | some t => simp [hget, hn]

theorem get?_of_find_join {es : List (String × FileTree)} {t : FileTree} (hp : p.text ≠ "")
    (hn : Path.IsName n) (h : f.find p = .ok (.dir es)) (hfind : f.find (p.join n) = .ok t) :
    Table.get? es n = some t := by
  rw [find_join_of_dir hp hn h] at hfind
  cases hcheck : checkPath (p.join n) with
  | error e => simp [hcheck, Except.bind] at hfind
  | ok _ =>
    simp only [hcheck, Except.bind] at hfind
    split at hfind
    · cases hfind
    · cases hget : Table.get? es n with
      | none =>
        rw [hget] at hfind
        cases hfind
      | some u =>
        rw [hget] at hfind
        cases hfind
        rfl

theorem exists_dir_of_locate_join {way' : List String} (hp : p.text ≠ "") (hn : Path.IsName n)
    (h : f.locate (p.join n) = .ok way') :
    ∃ way es, f.locate p = .ok way ∧ f.root.get? way = some (.dir es) ∧ way' = way ++ [n] := by
  obtain ⟨hcheck, hfollow⟩ := locate_eq_ok.mp h
  obtain ⟨front, -, hsegments, hjoined⟩ := Path.segments_join hp hn
  rw [start_join f hp hn, hjoined] at hfollow
  obtain ⟨way, hfront, hname⟩ := follow_append_eq_ok.mp hfollow
  obtain ⟨es, hdir, hway⟩ := exists_dir_of_follow_name hn hname
  refine ⟨way.reverse, es, locate_eq_ok.mpr ⟨checkPath_of_join hp hn hcheck, ?_⟩, hdir, ?_⟩
  · rw [List.reverse_reverse]
    rcases hsegments with hsegments | hsegments
    · rwa [hsegments]
    · -- a directory may be followed by a slash
      rw [hsegments]
      exact follow_append_eq_ok.mpr ⟨way, hfront, by simp [follow, hdir]⟩
  · rw [← List.reverse_inj, hway]
    simp

theorem exists_dir_of_find_join {t : FileTree} (hp : p.text ≠ "") (hn : Path.IsName n)
    (h : f.find (p.join n) = .ok t) : ∃ es, f.find p = .ok (.dir es) := by
  obtain ⟨way', hlocate, -⟩ := find_eq_ok.mp h
  obtain ⟨way, es, hway, hdir, -⟩ := exists_dir_of_locate_join hp hn hlocate
  exact ⟨es, find_eq_ok.mpr ⟨way, hway, hdir⟩⟩

/-! ## Directories -/

theorem isDirectory_iff : f.isDirectory p ↔ ∃ t, f.find p = .ok t ∧ t.kind = .directory := by
  unfold isDirectory
  cases f.find p with
  | error e => simp
  | ok t => simp

theorem text_ne_empty_of_find {t : FileTree} (h : f.find p = .ok t) : p.text ≠ "" := by
  intro hempty
  obtain ⟨way, hway, -⟩ := find_eq_ok.mp h
  obtain ⟨hcheck, -⟩ := locate_eq_ok.mp hway
  simp [checkPath, hempty] at hcheck

theorem list_eq_ok {names : List (String × FileTree.Kind)} :
    f.list p = .ok names ↔
      ∃ es, f.find p = .ok (.dir es) ∧ names = es.map fun e => (e.1, e.2.kind) := by
  show (f.find p).bind _ = _ ↔ _
  cases hfind : f.find p with
  | error e => simp [Except.bind]
  | ok t =>
    cases t with
    | dir es => simp [Except.bind, pure, Except.pure, eq_comm]
    | locked isDirectory => cases isDirectory <;> simp [Except.bind]
    | file _ | other _ => simp [Except.bind]

theorem list_of_find_dir {es : List (String × FileTree)} (h : f.find p = .ok (.dir es)) :
    f.list p = .ok (es.map fun e => (e.1, e.2.kind)) :=
  list_eq_ok.mpr ⟨es, h, rfl⟩

theorem list_of_find_locked (h : f.find p = .ok (.locked true)) :
    f.list p = .error .permissionDenied := by
  unfold list
  rw [h]
  rfl

theorem read_of_find_file {bytes : List UInt8} (h : f.find p = .ok (.file bytes)) :
    f.read p = .ok bytes := by
  unfold read
  rw [h]
  rfl

theorem find_file_of_read {es : List (String × FileTree)} {t : FileTree} {bytes : List UInt8}
    (hp : p.text ≠ "") (hn : Path.IsName n) (h : f.find p = .ok (.dir es))
    (hnames : (es.map Prod.fst).Nodup) (hmem : (n, t) ∈ es) (hkind : t.kind = .file)
    (hread : f.read (p.join n) = .ok bytes) : f.find (p.join n) = .ok (.file bytes) := by
  unfold read at hread
  cases hfind : f.find (p.join n) with
  | error e =>
    rw [hfind] at hread
    cases hread
  | ok u =>
    have hu := get?_of_find_join hp hn h hfind
    rw [(FileTree.get?_eq_some_iff hnames n t).mpr hmem] at hu
    cases hu
    rw [hfind] at hread
    cases t with
    | file contents =>
      cases hread
      rfl
    | locked _ => cases hread
    | dir _ | other _ => cases hkind

theorem isProper_of_find {t : FileTree} (h : f.root.isProper) (hfind : f.find p = .ok t) :
    t.isProper := by
  obtain ⟨way, -, hroot⟩ := find_eq_ok.mp hfind
  exact FileTree.isProper_of_get? h hroot

theorem isProper_entries {es : List (String × FileTree)} (h : f.root.isProper)
    (hfind : f.find p = .ok (.dir es)) :
    (es.map Prod.fst).Nodup ∧ ∀ e ∈ es, Path.IsName e.1 ∧ e.2.isProper :=
  (FileTree.isProper_dir_iff es).mp (isProper_of_find h hfind)

end Files

end ScriptedActions
