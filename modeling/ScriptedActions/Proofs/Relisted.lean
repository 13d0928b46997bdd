import Mathlib.Data.Option.Basic
import ScriptedActions.Proofs.Catalog
import ScriptedActions.Proofs.Files

/-!
# The order in which entries are listed

A file system lists the entries of a directory in any order, and can list them in another one the
next time. `Files.Relisted` is this change and no other. A path means the same after it, up to the
order below (`Files.Relisted.find`), what is read is the same, and a walk, which goes by the names,
gives the same items (`Walk.items_relisted`). So it makes no difference to discovery, neither to
what is found nor to what is reported.
-/

set_option autoImplicit false

namespace ScriptedActions

namespace FileTree

/-- Trees that differ in the order of entries only. -/
inductive Relisted : FileTree → FileTree → Prop
  | refl (t : FileTree) : Relisted t t
  | dir {es es' : List (String × FileTree)} (names : (es.map Prod.fst).Perm (es'.map Prod.fst))
      (entries : ∀ n t t', Table.get? es n = some t → Table.get? es' n = some t' → Relisted t t') :
      Relisted (dir es) (dir es')

namespace Relisted

variable {t t' : FileTree} {es es' : List (String × FileTree)}

theorem kind_eq (h : Relisted t t') : t'.kind = t.kind := by
  cases h <;> rfl

theorem contains_eq (h : (es.map Prod.fst).Perm (es'.map Prod.fst)) (n : String) :
    Table.contains es' n = Table.contains es n := by
  rw [Bool.eq_iff_iff, Table.contains_iff_mem_keys, Table.contains_iff_mem_keys]
  exact h.mem_iff.symm

theorem entry (h : Relisted (.dir es) (.dir es')) (n : String) :
    Option.Rel Relisted (Table.get? es n) (Table.get? es' n) := by
  cases h with
  | refl =>
    cases Table.get? es n with
    | none => exact .none
    | some t => exact .some (.refl t)
  | dir names entries =>
    have hcontains := contains_eq names n
    unfold Table.contains at hcontains
    cases hn : Table.get? es n with
    | none =>
      rw [hn, Option.isSome_none, Option.isSome_eq_false_iff, Option.isNone_iff_eq_none] at hcontains
      rw [hcontains]
      exact .none
    | some t =>
      rw [hn, Option.isSome_some, Option.isSome_iff_exists] at hcontains
      obtain ⟨t', ht'⟩ := hcontains
      rw [ht']
      exact .some (entries n t t' hn ht')

theorem cases_eq (h : Relisted t t') :
    t' = t ∨ ∃ es es', t = .dir es ∧ t' = .dir es' := by
  cases h with
  | refl => exact .inl rfl
  | dir => exact .inr ⟨_, _, rfl, rfl⟩

theorem get? (h : Relisted t t') (way : List String) :
    Option.Rel Relisted (t.get? way) (t'.get? way) := by
  induction way generalizing t t' with
  | nil => cases t <;> cases t' <;> exact .some h
  | cons n way ih =>
    rcases h.cases_eq with rfl | ⟨es, es', rfl, rfl⟩
    · cases t'.get? (n :: way) with
      | none => exact .none
      | some u => exact .some (.refl u)
    · have hentry := h.entry n
      show Option.Rel Relisted ((Table.get? es n).bind fun t => t.get? way)
        ((Table.get? es' n).bind fun t => t.get? way)
      revert hentry
      cases Table.get? es n <;> cases Table.get? es' n <;> intro hentry <;> cases hentry
      · exact .none
      · exact ih ‹_›

end Relisted

theorem Relisted.table_eq {es es' : List (String × FileTree)} (h : (es.map Prod.fst).Nodup)
    (hrelisted : Relisted (.dir es) (.dir es')) :
    Table.ofList (es'.map fun e => (e.1, e.2.kind)) =
      Table.ofList (es.map fun e => (e.1, e.2.kind)) := by
  have h' : (es'.map Prod.fst).Nodup := by
    cases hrelisted with
    | refl => exact h
    | dir names => exact names.nodup_iff.mp h
  refine (Table.sorted_ofList _).eq_of_mem (Table.sorted_ofList _) fun ⟨n, k⟩ => ?_
  simp only [mem_listed h, mem_listed h', ← get?_eq_some_iff h, ← get?_eq_some_iff h']
  have hentry := hrelisted.entry n
  revert hentry
  cases Table.get? es n <;> cases Table.get? es' n <;> intro hentry <;> cases hentry
  · rfl
  · simp [Relisted.kind_eq ‹_›]

end FileTree

namespace Files

/-- Files that are listed in another order. -/
structure Relisted (f f' : Files) : Prop where
  root : FileTree.Relisted f.root f'.root
  home : f'.home = f.home

namespace Relisted

variable {f f' : Files} (h : Relisted f f') (p : Path)

include h

theorem follow_eq (way segments : List String) :
    follow f'.root way segments = follow f.root way segments := by
  induction segments generalizing way with
  | nil => rfl
  | cons s rest ih =>
    have hway := h.root.get? way.reverse
    simp only [follow]
    revert hway
    cases f.root.get? way.reverse <;> cases f'.root.get? way.reverse <;> intro hway <;> cases hway
    case none => rfl
    case some hway =>
      rcases hway.cases_eq with rfl | ⟨es, es', rfl, rfl⟩
      · simp only [ih]
      · have hcontains : Table.contains es' s = Table.contains es s := by
          cases hway with
          | refl => rfl
          | dir names => exact FileTree.Relisted.contains_eq names s
        simp only [ih, hcontains]

theorem locate_eq : f'.locate p = f.locate p := by
  have hstart : f'.start p = f.start p := by
    unfold start
    rw [h.home]
  show (checkPath p).bind (fun _ => (follow f'.root (f'.start p) p.segments).bind _) =
    (checkPath p).bind fun _ => (follow f.root (f.start p) p.segments).bind _
  rw [hstart, h.follow_eq]

/-- **A path means what it meant**, up to the order of entries. -/
theorem find : (∃ t t', f.find p = .ok t ∧ f'.find p = .ok t' ∧ FileTree.Relisted t t') ∨
    ∃ e, f.find p = .error e ∧ f'.find p = .error e := by
  rw [find_eq, find_eq, h.locate_eq]
  cases f.locate p with
  | error e => exact .inr ⟨e, rfl, rfl⟩
  | ok way =>
    have hway := h.root.get? way
    simp only [Except.bind]
    revert hway
    cases f.root.get? way <;> cases f'.root.get? way <;> intro hway <;> cases hway
    case none => exact .inr ⟨_, rfl, rfl⟩
    case some hway => exact .inl ⟨_, _, rfl, rfl, hway⟩

theorem isDirectory_eq : f'.isDirectory p = f.isDirectory p := by
  unfold isDirectory
  rcases h.find p with ⟨t, t', ht, ht', hrelisted⟩ | ⟨e, he, he'⟩
  · simp only [ht, ht', hrelisted.kind_eq]
  · simp only [he, he']

theorem read_eq : f'.read p = f.read p := by
  unfold read
  rcases h.find p with ⟨t, t', ht, ht', hrelisted⟩ | ⟨e, he, he'⟩
  · rw [ht, ht']
    rcases hrelisted.cases_eq with rfl | ⟨es, es', rfl, rfl⟩ <;> rfl
  · rw [he, he']

theorem list (hproper : f.root.isProper) :
    (∃ names names', f.list p = .ok names ∧ f'.list p = .ok names' ∧
      Table.ofList names' = Table.ofList names) ∨
    ∃ e, f.list p = .error e ∧ f'.list p = .error e := by
  rcases h.find p with ⟨t, t', ht, ht', hrelisted⟩ | ⟨e, he, he'⟩
  · rcases hrelisted.cases_eq with rfl | ⟨es, es', rfl, rfl⟩
    · have hlist : f'.list p = f.list p := by
        unfold Files.list
        rw [ht, ht']
      cases hf : f.list p with
      | ok names => exact .inl ⟨names, names, rfl, hlist.trans hf, rfl⟩
      | error e => exact .inr ⟨e, rfl, hlist.trans hf⟩
    · exact .inl ⟨_, _, list_of_find_dir ht, list_of_find_dir ht',
        hrelisted.table_eq (isProper_entries hproper ht).1⟩
  · refine .inr ⟨e, ?_, ?_⟩ <;> unfold Files.list
    · rw [he]
      rfl
    · rw [he']
      rfl

end Relisted

end Files

variable {f f' : Files}

/-- **A walk goes by the names**, so it gives the same items. -/
theorem Walk.items_relisted (w : Walk) (h : f.Relisted f') (hproper : f.root.isProper) (d : Path) :
    w.items f' d = w.items f d := by
  have hvisit (levels : Nat) (e : Entry) : w.visit f' levels e = w.visit f levels e := by
    induction levels generalizing e with
    | zero => rfl
    | succ levels ih =>
      unfold visit
      rcases h.list e.path hproper with ⟨names, names', hf, hf', htable⟩ | ⟨e, hf, hf'⟩
      · rw [hf, hf']
        dsimp only
        unfold listed
        rw [htable, funext ih]
      · rw [hf, hf']
  unfold items
  rcases h.find d with ⟨t, t', ht, ht', hrelisted⟩ | ⟨e, he, he'⟩
  · simp only [ht, ht', hrelisted.kind_eq, hvisit]
  · rw [he, he']

namespace Schema

/-- **The order in which entries are listed makes no difference** to what is found or reported. -/
theorem discover_relisted (h : f.Relisted f') (hproper : f.root.isProper) (directories : List Path) :
    discover f' directories = discover f directories := by
  have hitem : addItem f' = addItem f := by
    funext d c item
    cases item with
    | entry e => exact addItem_congr (h.read_eq e.path) d c
    | unlisted p e => rfl
  have hdirectory : addDirectory f' = addDirectory f := by
    funext c d
    unfold addDirectory
    rw [h.isDirectory_eq, search.items_relisted h hproper, hitem]
  unfold discover
  rw [hdirectory]

end Schema

end ScriptedActions
