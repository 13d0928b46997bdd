import ScriptedActions.Proofs.Confinement
import ScriptedActions.Proofs.Files

/-!
# What a search for schemas comes to

A search goes into every directory directly below the one that is searched, and offers what is not
hidden there (`Schema.items_search`). In a proper tree these are the entries that the file system
lists, each once; an entry that is a schema file and can be loaded stands where the names of its
schema say (`Schema.mem_schemasIn`).
-/

set_option autoImplicit false

namespace ScriptedActions

namespace Files

variable {f : Files} {p : Path}

theorem readText_eq_ok {text : String} : f.readText p = .ok text ↔
    ∃ bytes, f.read p = .ok bytes ∧ Text.Utf8.decode bytes = .ok text := by
  show (f.read p).bind _ = _ ↔ _
  cases f.read p with
  | error e => simp [Except.bind]
  | ok bytes =>
    cases hdecode : Text.Utf8.decode bytes with
    | error e => simp [Except.bind, hdecode]
    | ok s => simp [Except.bind, hdecode, pure, Except.pure]

end Files

namespace Schema

variable {files : Files} {d : Path} {agent action : String} {s : ActionSchema}

/-! ## Items -/

/-- What a search gives of the directory of an agent. -/
def itemsOfAgent (files : Files) (p : Path) : List Walk.Item :=
  match files.list p with
  | .ok names =>
    ((Table.ofList names).filter fun e => !isHidden e.1).map fun (n, kind) =>
      .entry ⟨p.join n, n, 2, kind⟩
  | .error e => [.unlisted p e]

/-- What a search gives of an entry directly below the directory that is searched. -/
def itemsBelow (files : Files) (d : Path) (e : String × FileTree.Kind) : List Walk.Item :=
  if e.2 = .directory then itemsOfAgent files (d.join e.1) else []

theorem visit_file (e : Walk.Entry) (hdepth : e.depth = 2) :
    search.visit files 0 e = if isHidden e.name then [] else [.entry e] := by
  unfold Walk.visit Walk.offer search
  simp only [hdepth, lt_irrefl, if_false]
  cases isHidden e.name <;> rfl

/-- Directories of agents are gone into whatever they are called. -/
theorem visit_agent (n : String) (kind : FileTree.Kind) :
    search.visit files 1 ⟨d.join n, n, 1, kind⟩ = itemsBelow files d (n, kind) := by
  have hoffer (inside : List Walk.Item) :
      search.offer ⟨d.join n, n, 1, kind⟩ inside = inside := rfl
  unfold Walk.visit itemsBelow itemsOfAgent
  rw [hoffer]
  dsimp only
  split
  case isTrue =>
    cases files.list (d.join n) with
    | error e => rfl
    | ok names =>
      dsimp only
      unfold Walk.listed
      rw [List.flatMap_map]
      induction Table.ofList names with
      | nil => rfl
      | cons e rest ih =>
        rw [List.flatMap_cons, ih, visit_file _ rfl, List.filter_cons]
        cases isHidden e.1 <;> rfl
  case isFalse => rfl

/-- **What a search gives**, in the order of the names. -/
theorem items_search (h : files.isDirectory d) :
    search.items files d =
      match files.list d with
      | .ok names => (Table.ofList names).flatMap (itemsBelow files d)
      | .error e => [.unlisted d e] := by
  obtain ⟨t, hfind, hkind⟩ := Files.isDirectory_iff.mp h
  have hoffer (name : String) (inside : List Walk.Item) :
      search.offer ⟨d, name, 0, .directory⟩ inside = inside := rfl
  unfold Walk.items
  simp only [hfind, hkind]
  show search.visit files 2 _ = _
  unfold Walk.visit
  rw [hoffer]
  dsimp only
  rw [if_pos rfl]
  cases files.list d with
  | error e => rfl
  | ok names =>
    dsimp only
    unfold Walk.listed
    rw [List.flatMap_map]
    exact List.flatMap_congr fun e _ => visit_agent e.1 e.2

/-- What a search gives of a directory, which may be missing. -/
def itemsIn (files : Files) (d : Path) : List Walk.Item :=
  if files.isDirectory d then search.items files d else []

/-! ## Entries of a proper tree -/

theorem mem_itemsOfAgent {p : Path} {fs : List (String × FileTree)}
    (hfind : files.find p = .ok (.dir fs)) (hnames : (fs.map Prod.fst).Nodup) (e : Walk.Entry) :
    .entry e ∈ itemsOfAgent files p ↔
      ∃ n t, (n, t) ∈ fs ∧ isHidden n = false ∧ e = ⟨p.join n, n, 2, t.kind⟩ := by
  unfold itemsOfAgent
  rw [Files.list_of_find_dir hfind]
  simp only [List.mem_map, List.mem_filter, FileTree.mem_listed hnames, Bool.not_eq_true',
    Prod.exists, Walk.Item.entry.injEq]
  constructor
  · rintro ⟨n, kind, ⟨⟨t, hmem, rfl⟩, hhidden⟩, rfl⟩
    exact ⟨n, t, hmem, hhidden, rfl⟩
  · rintro ⟨n, t, hmem, hhidden, rfl⟩
    exact ⟨n, t.kind, ⟨⟨t, hmem, rfl⟩, hhidden⟩, rfl⟩

theorem dir_of_mem_itemsOfAgent {p : Path} {e : Walk.Entry}
    (h : .entry e ∈ itemsOfAgent files p) : ∃ fs, files.find p = .ok (.dir fs) := by
  unfold itemsOfAgent at h
  split at h
  case h_1 names hlist =>
    obtain ⟨fs, hfind, -⟩ := Files.list_eq_ok.mp hlist
    exact ⟨fs, hfind⟩
  case h_2 => simp at h

theorem mem_itemsBelow {a : String} {kind : FileTree.Kind} {e : Walk.Entry} :
    .entry e ∈ itemsBelow files d (a, kind) ↔
      kind = .directory ∧ .entry e ∈ itemsOfAgent files (d.join a) := by
  unfold itemsBelow
  dsimp only
  split
  case isTrue h => simp [h]
  case isFalse h => simp [h]

/-- **An entry that a search gives** is listed in a directory that is listed in the one searched. -/
theorem mem_items_search (hproper : files.root.isProper) (h : files.isDirectory d)
    (e : Walk.Entry) : .entry e ∈ search.items files d ↔
      ∃ a n fs t, Path.IsName a ∧ files.find (d.join a) = .ok (.dir fs) ∧ (n, t) ∈ fs ∧
        isHidden n = false ∧ e = ⟨(d.join a).join n, n, 2, t.kind⟩ := by
  rw [items_search h]
  obtain ⟨t, hfind, hkind⟩ := Files.isDirectory_iff.mp h
  have htext := Files.text_ne_empty_of_find hfind
  rcases FileTree.kind_eq_directory hkind with ⟨es, rfl⟩ | rfl
  · obtain ⟨hnames, hes⟩ := Files.isProper_entries hproper hfind
    rw [Files.list_of_find_dir hfind]
    simp only [List.mem_flatMap, FileTree.mem_listed hnames, Prod.exists, mem_itemsBelow]
    constructor
    · rintro ⟨a, kind, ⟨u, hau, rfl⟩, -, hitem⟩
      obtain ⟨fs, hfs⟩ := dir_of_mem_itemsOfAgent hitem
      obtain ⟨n, t, hnt, hhidden, rfl⟩ :=
        (mem_itemsOfAgent hfs (Files.isProper_entries hproper hfs).1 e).mp hitem
      exact ⟨a, n, fs, t, (hes _ hau).1, hfs, hnt, hhidden, rfl⟩
    · rintro ⟨a, n, fs, t, hisName, hfs, hnt, hhidden, rfl⟩
      have hget := Files.get?_of_find_join htext hisName hfind hfs
      refine ⟨a, .directory, ⟨_, FileTree.mem_of_get? hget, rfl⟩, rfl, ?_⟩
      exact (mem_itemsOfAgent hfs (Files.isProper_entries hproper hfs).1 _).mpr
        ⟨n, t, hnt, hhidden, rfl⟩
  · rw [Files.list_of_find_locked hfind]
    simp only [List.mem_singleton, reduceCtorEq, false_iff]
    rintro ⟨a, n, fs, t, hisName, hfs, -⟩
    obtain ⟨es, hes⟩ := Files.exists_dir_of_find_join htext hisName hfs
    rw [hfind] at hes
    cases hes

end Schema

end ScriptedActions
