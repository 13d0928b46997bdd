import ScriptedActions.Proofs.Files

/-!
# Files without what stands at certain places

`Files.without` takes out of a tree what stands at the places that a condition names. A path that
means something afterwards meant it before, at the same place (`Files.find_without`). From a
directory that is left, names lead on as they did, so what is listed in it lacks what was taken out
and nothing else, and the files that are left are read as they were. `Files.Thinned` says this of
one path, and goes on from a path to the names below it.
-/

set_option autoImplicit false

namespace ScriptedActions

namespace FileTree

mutual

/-- The tree without what stands at certain places below it. -/
def without (gone : List String → Bool) : FileTree → FileTree
  | dir es => dir (withoutEntries gone es)
  | t => t

/-- The entries of a directory without those at certain places, and what is gone below them. -/
def withoutEntries (gone : List String → Bool) : List (String × FileTree) → List (String × FileTree)
  | [] => []
  | (n, t) :: rest =>
    if gone [n] then withoutEntries gone rest
    else (n, t.without fun way => gone (n :: way)) :: withoutEntries gone rest

end

variable {gone : List String → Bool}

@[simp] theorem kind_without (t : FileTree) : (t.without gone).kind = t.kind := by
  cases t <;> rfl

theorem get?_withoutEntries (es : List (String × FileTree)) (n : String) :
    Table.get? (withoutEntries gone es) n =
      if gone [n] then none else (Table.get? es n).map (without fun way => gone (n :: way)) := by
  induction es with
  | nil =>
    split <;> rfl
  | cons e rest ih =>
    obtain ⟨m, t⟩ := e
    unfold withoutEntries
    by_cases hn : n = m
    · subst hn
      by_cases hgone : gone [n]
      · rw [if_pos hgone, ih, if_pos hgone, if_pos hgone]
      · rw [if_neg hgone, if_neg hgone]
        simp only [Table.get?, if_true, Option.map_some]
    · by_cases hgone : gone [m]
      · rw [if_pos hgone, ih]
        simp only [Table.get?, if_neg hn]
      · rw [if_neg hgone]
        simp only [Table.get?, if_neg hn, ih]

theorem names_withoutEntries (es : List (String × FileTree)) :
    (withoutEntries gone es).map (fun e => (e.1, e.2.kind)) =
      (es.map fun e => (e.1, e.2.kind)).filter fun e => !gone [e.1] := by
  induction es with
  | nil => rfl
  | cons e rest ih =>
    obtain ⟨n, t⟩ := e
    unfold withoutEntries
    rw [List.map_cons, List.filter_cons]
    by_cases hgone : gone [n]
    · rw [if_pos hgone, ih]
      simp [hgone]
    · rw [if_neg hgone, List.map_cons, ih]
      simp [hgone]

theorem eq_dir_of_without {t : FileTree} {es' : List (String × FileTree)}
    (h : t.without gone = dir es') : ∃ es, t = dir es ∧ es' = withoutEntries gone es := by
  cases t with
  | dir es =>
    cases h
    exact ⟨es, rfl, rfl⟩
  | file _ | locked _ | other _ => cases h

/-- What is left at a place stood there, with what is gone below it. -/
theorem get?_without {t u' : FileTree} {way : List String}
    (h : (t.without gone).get? way = some u') :
    ∃ u, t.get? way = some u ∧ u' = u.without fun below => gone (way ++ below) := by
  induction way generalizing t gone with
  | nil =>
    refine ⟨t, by cases t <;> rfl, ?_⟩
    cases t <;> cases h <;> rfl
  | cons n way ih =>
    cases t with
    | dir es =>
      have hbelow : ((Table.get? (withoutEntries gone es) n).bind fun t => t.get? way) = some u' := h
      rw [get?_withoutEntries] at hbelow
      split at hbelow
      · cases hbelow
      · obtain ⟨v', hv', hway⟩ := Option.bind_eq_some_iff.mp hbelow
        obtain ⟨v, hv, rfl⟩ := Option.map_eq_some_iff.mp hv'
        obtain ⟨u, hu, rfl⟩ := ih hway
        exact ⟨u, Option.bind_eq_some_iff.mpr ⟨v, hv, hu⟩, rfl⟩
    | file _ | locked _ | other _ => cases h

end FileTree

namespace Files

variable {f f' : Files} {gone : List String → Bool} {p : Path}

/-- The files without what stands at certain places. -/
def without (f : Files) (gone : List String → Bool) : Files := { f with root := f.root.without gone }

theorem Step.of_without {root : FileTree} {way next : List String} {s : String}
    (h : Step (root.without gone) way s next) : Step root way s next := by
  cases h with
  | stay hdir hs =>
    obtain ⟨u, hu, hdir'⟩ := FileTree.get?_without hdir
    obtain ⟨es, rfl, -⟩ := FileTree.eq_dir_of_without hdir'.symm
    exact .stay hu hs
  | up hdir hs =>
    obtain ⟨u, hu, hdir'⟩ := FileTree.get?_without hdir
    obtain ⟨es, rfl, -⟩ := FileTree.eq_dir_of_without hdir'.symm
    exact .up hu hs
  | down hdir hs hshort hentry =>
    obtain ⟨u, hu, hdir'⟩ := FileTree.get?_without hdir
    obtain ⟨es, rfl, rfl⟩ := FileTree.eq_dir_of_without hdir'.symm
    have hentry' : Table.contains es s := by
      unfold Table.contains at hentry ⊢
      rw [FileTree.get?_withoutEntries] at hentry
      split at hentry
      · cases hentry
      · rwa [Option.isSome_map] at hentry
    exact .down hu hs hshort hentry'
  | slash hlocked hs =>
    obtain ⟨u, hu, hlocked'⟩ := FileTree.get?_without hlocked
    cases u with
    | locked isDirectory =>
      cases hlocked'
      exact .slash hu hs
    | dir _ | file _ | other _ => cases hlocked'

theorem follow_without {root : FileTree} {way way' segments : List String}
    (h : follow (root.without gone) way segments = .ok way') :
    follow root way segments = .ok way' := by
  induction segments generalizing way with
  | nil => exact h
  | cons s rest ih =>
    obtain ⟨next, hstep, hnext⟩ := follow_cons_eq_ok.mp h
    exact follow_cons_eq_ok.mpr ⟨next, hstep.of_without, ih hnext⟩

theorem locate_without {way : List String} (h : (f.without gone).locate p = .ok way) :
    f.locate p = .ok way := by
  obtain ⟨hcheck, hfollow⟩ := locate_eq_ok.mp h
  exact locate_eq_ok.mpr ⟨hcheck, follow_without hfollow⟩

/-! ## Below a path -/

/-- A path means what it meant, without what is gone below it. -/
def Thinned (f f' : Files) (p : Path) (gone : List String → Bool) : Prop :=
  f'.find p = (f.find p).map (FileTree.without gone)

/-- **What is left at a path is what it meant**, without what is gone below it. -/
theorem find_without {t' : FileTree} (h : (f.without gone).find p = .ok t') :
    ∃ way, f.locate p = .ok way ∧ Thinned f (f.without gone) p fun below => gone (way ++ below) := by
  obtain ⟨way, hway, hroot⟩ := find_eq_ok.mp h
  obtain ⟨t, ht, rfl⟩ := FileTree.get?_without hroot
  refine ⟨way, locate_without hway, ?_⟩
  unfold Thinned
  rw [h, find_eq_ok.mpr ⟨way, locate_without hway, ht⟩]
  rfl

namespace Thinned

theorem join {es : List (String × FileTree)} {n : String} (h : Thinned f f' p gone)
    (hdir : f.find p = .ok (.dir es)) (hn : Path.IsName n) (hkept : gone [n] = false) :
    Thinned f f' (p.join n) fun below => gone (n :: below) := by
  have hp : p.text ≠ "" := text_ne_empty_of_find hdir
  have hdir' : f'.find p = .ok (.dir (FileTree.withoutEntries gone es)) := by
    rw [h, hdir]
    rfl
  unfold Thinned
  rw [find_join_of_dir hp hn hdir, find_join_of_dir hp hn hdir', FileTree.get?_withoutEntries,
    hkept]
  cases checkPath (p.join n) with
  | error e => rfl
  | ok _ =>
    simp only [Except.bind, Bool.false_eq_true, if_false]
    split
    · rfl
    · cases Table.get? es n <;> rfl

theorem isDirectory (h : Thinned f f' p gone) : f'.isDirectory p = f.isDirectory p := by
  unfold Files.isDirectory
  rw [h]
  cases f.find p with
  | error e => rfl
  | ok t => exact congrArg (· == .directory) (FileTree.kind_without t)

theorem list (h : Thinned f f' p gone) :
    f'.list p = (f.list p).map fun names => names.filter fun e => !gone [e.1] := by
  unfold Files.list
  rw [h]
  cases f.find p with
  | error e => rfl
  | ok t =>
    cases t with
    | dir es => exact congrArg Except.ok (FileTree.names_withoutEntries es)
    | locked isDirectory => cases isDirectory <;> rfl
    | file _ | other _ => rfl

theorem read (h : Thinned f f' p gone) : f'.read p = f.read p := by
  unfold Files.read
  rw [h]
  cases f.find p with
  | error e => rfl
  | ok t =>
    cases t with
    | other contents => cases contents <;> rfl
    | file _ | dir _ | locked _ => rfl

end Thinned

end Files

end ScriptedActions
