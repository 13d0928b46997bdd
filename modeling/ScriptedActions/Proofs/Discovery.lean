import ScriptedActions.Proofs.Catalog
import ScriptedActions.Proofs.Relisted
import ScriptedActions.Proofs.Search

/-!
# What discovery finds

A directory declares a schema for an action if the file that the names of the action lead to stands
in it, is a regular file, and is read as a schema (`Schema.Declares`). This is said without a
search: it is about one path. In a proper tree a search comes to just the schemas that are declared
(`Schema.mem_schemasIn`), so the order of a search, and whatever else stands in the directory, plays
no part in what is bound: the first directory that declares a schema for an action does.
-/

set_option autoImplicit false

namespace ScriptedActions

variable {files : Files} {d : Path} {agent action : String} {s : ActionSchema}

/-! ## Loading -/

namespace Schema

theorem namesOfPath_eq_ok {p : Path} : namesOfPath p = .ok (agent, action) ↔
    p.directoryName? = some agent ∧ p.stem? = some action ∧ AreNames agent action := by
  unfold namesOfPath
  cases p.stem? with
  | none => simp
  | some x =>
    cases p.directoryName? with
    | none => simp
    | some a =>
      cases ha : Naming.check a with
      | error e =>
        simp only [ha, reduceCtorEq, Option.some.injEq, false_iff]
        rintro ⟨rfl, -, h⟩
        cases ha.symm.trans h.agent
      | ok _ =>
        cases hx : Naming.check x with
        | error e =>
          simp only [ha, hx, reduceCtorEq, Option.some.injEq, false_iff]
          rintro ⟨-, rfl, h⟩
          cases hx.symm.trans h.action
        | ok _ =>
          simp only [ha, hx, Except.ok.injEq, Prod.mk.injEq, Option.some.injEq]
          constructor
          · rintro ⟨rfl, rfl⟩
            exact ⟨rfl, rfl, ha, hx⟩
          · rintro ⟨rfl, rfl, -⟩
            exact ⟨rfl, rfl⟩

/-- The schema that a file declares at a path. -/
def placed (p : Path) (agent action : String) (content : SchemaFile) : ActionSchema :=
  { ActionSchema.ofFile agent action content with path := some p }

theorem load_eq_ok {p : Path} : load files p = .ok s ↔
    ∃ agent action text content, namesOfPath p = .ok (agent, action) ∧
      files.readText p = .ok text ∧ SchemaFile.decoder.parse text = .ok content ∧
      s = placed p agent action content := by
  unfold load
  cases namesOfPath p with
  | error e => simp
  | ok names =>
    obtain ⟨a, x⟩ := names
    cases files.readText p with
    | error e => simp
    | ok text =>
      cases hparse : SchemaFile.decoder.parse text with
      | error e => simp [hparse]
      | ok content => simp [hparse, placed, eq_comm]

/-! ## Declarations -/

/-- A directory declares a schema for an action: the file of the action stands in it and is read as
the schema. -/
structure Declares (files : Files) (d : Path) (agent action : String) (s : ActionSchema) : Prop where
  directory : files.isDirectory d
  names : AreNames agent action
  file : ∃ bytes text content,
    files.find (schemaPath d agent action) = .ok (.file bytes) ∧
    Text.Utf8.decode bytes = .ok text ∧
    SchemaFile.decoder.parse text = .ok content ∧
    s = placed (schemaPath d agent action) agent action content

namespace Declares

theorem agent_eq (h : Declares files d agent action s) : s.agent = agent := by
  obtain ⟨-, -, content, -, -, -, rfl⟩ := h.file
  rfl

theorem action_eq (h : Declares files d agent action s) : s.action = action := by
  obtain ⟨-, -, content, -, -, -, rfl⟩ := h.file
  rfl

/-- A directory declares one schema for an action at most. -/
theorem unique {s' : ActionSchema} (h : Declares files d agent action s)
    (h' : Declares files d agent action s') : s' = s := by
  obtain ⟨bytes, text, content, hfind, hdecode, hparse, rfl⟩ := h.file
  obtain ⟨bytes', text', content', hfind', hdecode', hparse', rfl⟩ := h'.file
  rw [hfind] at hfind'
  cases hfind'
  rw [hdecode] at hdecode'
  cases hdecode'
  rw [hparse] at hparse'
  cases hparse'
  rfl

theorem load_eq (h : Declares files d agent action s) :
    load files (schemaPath d agent action) = .ok s := by
  obtain ⟨bytes, text, content, hfind, hdecode, hparse, hs⟩ := h.file
  have htext : files.readText (schemaPath d agent action) = .ok text :=
    Files.readText_eq_ok.mpr ⟨bytes, Files.read_of_find_file hfind, hdecode⟩
  exact load_eq_ok.mpr
    ⟨agent, action, text, content, namesOfPath_schemaPath d h.names, htext, hparse, hs⟩

end Declares

/-! ## The schemas of a directory -/

/-- The schema that an item of a search leads to. -/
def schemaOf? (files : Files) : Walk.Item → Option ActionSchema
  | .entry e => if isCandidate e then (load files e.path).toOption else none
  | .unlisted _ _ => none

theorem schemaOf?_entry {e : Walk.Entry} :
    schemaOf? files (.entry e) = some s ↔ isCandidate e ∧ load files e.path = .ok s := by
  unfold schemaOf?
  dsimp only
  cases load files e.path <;> cases isCandidate e <;> simp [Except.toOption]

/-- The schemas of a directory, in the order of the search. -/
def schemasIn (files : Files) (d : Path) : List ActionSchema :=
  (itemsIn files d).filterMap (schemaOf? files)

theorem isHidden_fileOf (h : AreNames agent action) :
    isHidden (action ++ "." ++ fileExtension) = false := by
  obtain ⟨c, cs, hcons, hc⟩ := Naming.head_of_check h.action
  unfold isHidden
  rw [String.toList_append, String.toList_append, hcons]
  simpa using hc

theorem extension?_schemaPath (h : AreNames agent action) :
    (schemaPath d agent action).extension? = some fileExtension := by
  unfold schemaPath Path.extension?
  rw [Path.fileName?_join _ (isName_fileOf h), Option.bind_some, splitName_fileOf h]

/-- A schema file in the directory of an agent is called after an action of it. -/
theorem schemaPath_of_names {a n : String} (ha : Path.IsName a) (hn : Path.IsName n)
    (hextension : ((d.join a).join n).extension? = some fileExtension)
    (hnames : namesOfPath ((d.join a).join n) = .ok (agent, action)) :
    agent = a ∧ n = action ++ "." ++ fileExtension := by
  obtain ⟨hdirectory, hstem, -⟩ := namesOfPath_eq_ok.mp hnames
  rw [Path.directoryName?_join d ha hn] at hdirectory
  unfold Path.extension? at hextension
  unfold Path.stem? at hstem
  rw [Path.fileName?_join _ hn] at hextension hstem
  have hsplit : Path.splitName n = (action, some fileExtension) :=
    Prod.ext (Option.some.inj hstem) hextension
  exact ⟨(Option.some.inj hdirectory).symm, (Path.splitName_eq_some.mp hsplit).1⟩

theorem declares_of_entry (hproper : files.root.isProper) (hdirectory : files.isDirectory d)
    {e : Walk.Entry} (he : .entry e ∈ search.items files d) (hcandidate : isCandidate e)
    (hload : load files e.path = .ok s) : Declares files d s.agent s.action s := by
  obtain ⟨hkind, hextension⟩ := Bool.and_eq_true_iff.mp hcandidate
  obtain ⟨a, n, fs, t, ha, hfs, hnt, -, rfl⟩ := (mem_items_search hproper hdirectory e).mp he
  obtain ⟨hnames, hentries⟩ := Files.isProper_entries hproper hfs
  have hn := (hentries _ hnt).1
  obtain ⟨agent, action, text, content, hpath, htext, hparse, rfl⟩ := load_eq_ok.mp hload
  obtain ⟨rfl, rfl⟩ := schemaPath_of_names ha hn (beq_iff_eq.mp hextension) hpath
  obtain ⟨bytes, hread, hdecode⟩ := Files.readText_eq_ok.mp htext
  have hfind := Files.find_file_of_read (Path.text_join_ne_empty ha) hn hfs hnames hnt
    (beq_iff_eq.mp hkind) hread
  exact ⟨hdirectory, (namesOfPath_eq_ok.mp hpath).2.2, bytes, text, content, hfind, hdecode,
    hparse, rfl⟩

theorem Declares.entry_mem (hproper : files.root.isProper) (h : Declares files d agent action s) :
    .entry ⟨schemaPath d agent action, action ++ "." ++ fileExtension, 2, .file⟩ ∈
      search.items files d := by
  obtain ⟨bytes, text, content, hfind, -⟩ := h.file
  have hagent := Naming.isName_of_check h.names.agent
  have htext : (d.join agent).text ≠ "" := Path.text_join_ne_empty hagent
  obtain ⟨fs, hfs⟩ := Files.exists_dir_of_find_join htext (isName_fileOf h.names) hfind
  have hget := Files.get?_of_find_join htext (isName_fileOf h.names) hfs hfind
  exact (mem_items_search hproper h.directory _).mpr ⟨agent, _, fs, _, hagent, hfs,
    FileTree.mem_of_get? hget, isHidden_fileOf h.names, rfl⟩

/-- **A search comes to the schemas that are declared**, and to no others. -/
theorem mem_schemasIn (hproper : files.root.isProper) :
    s ∈ schemasIn files d ↔ Declares files d s.agent s.action s := by
  unfold schemasIn itemsIn
  split
  case isFalse hmissing =>
    simp only [List.filterMap_nil, List.not_mem_nil, false_iff]
    exact fun h => hmissing h.directory
  case isTrue hdirectory =>
    simp only [List.mem_filterMap]
    constructor
    · rintro ⟨item, hitem, hschema⟩
      cases item with
      | unlisted p e => cases hschema
      | entry e =>
        obtain ⟨hcandidate, hload⟩ := schemaOf?_entry.mp hschema
        exact declares_of_entry hproper hdirectory hitem hcandidate hload
    · intro h
      refine ⟨_, h.entry_mem hproper, schemaOf?_entry.mpr ⟨?_, h.load_eq⟩⟩
      simp [isCandidate, extension?_schemaPath h.names]

/-- At most one schema of a directory has the names of an action. -/
theorem find?_schemasIn (hproper : files.root.isProper) :
    (schemasIn files d).find? (fun s => agent = s.agent ∧ action = s.action) = some s ↔
      Declares files d agent action s := by
  constructor
  · intro h
    have hmem := (mem_schemasIn hproper).mp (List.mem_of_find?_eq_some h)
    have hnames := List.find?_some h
    simp only [decide_eq_true_eq] at hnames
    rwa [← hnames.1, ← hnames.2] at hmem
  · intro h
    have hnames : agent = s.agent ∧ action = s.action := ⟨h.agent_eq.symm, h.action_eq.symm⟩
    have hmem : s ∈ schemasIn files d :=
      (mem_schemasIn hproper).mpr (hnames.1 ▸ hnames.2 ▸ h)
    -- another schema with these names would be declared as well, so it is the same one
    cases hfind : (schemasIn files d).find? fun s => agent = s.agent ∧ action = s.action with
    | none =>
      exact absurd (decide_eq_true hnames) (List.find?_eq_none.mp hfind s hmem)
    | some s' =>
      have h' := (mem_schemasIn hproper).mp (List.mem_of_find?_eq_some hfind)
      have hnames' := List.find?_some hfind
      simp only [decide_eq_true_eq] at hnames'
      rw [← hnames'.1, ← hnames'.2] at h'
      exact congrArg some (h.unique h')

/-! ## The catalog that is found -/

theorem value_addItem (c : Catalog) (item : Walk.Item) :
    (addItem files d c item).value = (schemaOf? files item).elim c c.insert := by
  cases item with
  | unlisted p e => rfl
  | entry e =>
    unfold schemaOf?
    by_cases hcandidate : isCandidate e
    · rw [addItem_of_isCandidate d c hcandidate]
      unfold addFile
      simp only [hcandidate, if_true]
      cases load files e.path with
      | error e => rfl
      | ok s => exact value_add c s
    · rw [addItem_of_not_isCandidate d c hcandidate]
      simp only [hcandidate]
      rfl

theorem value_addDirectory (c : Catalog) :
    (addDirectory files c d).value = (schemasIn files d).foldl Catalog.insert c := by
  unfold addDirectory schemasIn itemsIn
  split
  · rw [Logged.value_foldlM, List.foldl_filterMap]
    congr 1
    funext c item
    rw [value_addItem]
    cases schemaOf? files item <;> rfl
  · rfl

/-- **Discovery inserts the schemas of the directories**, one after another. -/
theorem value_discover (directories : List Path) :
    (discover files directories).value =
      (directories.flatMap (schemasIn files)).foldl Catalog.insert .empty := by
  unfold discover
  rw [Logged.value_bind, Logged.value_bind, Logged.value_pure, Logged.value_foldlM,
    List.foldl_flatMap]
  congr 1
  funext c d
  exact value_addDirectory c

theorem lookup_discover (hproper : files.root.isProper) (directories : List Path)
    (agent action : String) (s : ActionSchema) :
    (discover files directories).value.lookup agent action = some s ↔
      ∃ before d after, directories = before ++ d :: after ∧ Declares files d agent action s ∧
        ∀ d' ∈ before, ∀ s', ¬ Declares files d' agent action s' := by
  rw [value_discover, Catalog.lookup_foldl_insert, Catalog.lookup_empty, Option.none_or,
    List.find?_flatMap, List.findSome?_eq_some_iff]
  simp only [find?_schemasIn hproper, Option.eq_none_iff_forall_ne_some, ne_eq]

theorem value_discover_again {before after : List Path} (hd : d ∈ before) :
    (discover files (before ++ d :: after)).value = (discover files (before ++ after)).value := by
  rw [value_discover, value_discover, List.flatMap_append, List.flatMap_append, List.flatMap_cons,
    List.foldl_append, List.foldl_append, List.foldl_append]
  congr 1
  refine Catalog.foldl_insert_of_contains fun s hs => ?_
  exact Catalog.contains_foldl_insert (List.mem_flatMap.mpr ⟨d, hd, hs⟩)

/-- **Discovery binds what the directories declare.** An action is bound if and only if a directory
of the list declares a schema for it, and then to the schema of the first one that does, with its
path; what else stands in the directories, or cannot be read there, makes no difference. A directory
that is listed again changes nothing, and neither does the order in which the file system lists
entries. -/
theorem discover_declared (hproper : files.root.isProper) (directories : List Path) :
    (∀ agent action s, (discover files directories).value.lookup agent action = some s ↔
      ∃ before d after, directories = before ++ d :: after ∧ Declares files d agent action s ∧
        ∀ d' ∈ before, ∀ s', ¬ Declares files d' agent action s') ∧
    (∀ agent action, (discover files directories).value.contains agent action ↔
      ∃ d ∈ directories, ∃ s, Declares files d agent action s) ∧
    (∀ before d after, directories = before ++ d :: after → d ∈ before →
      (discover files directories).value = (discover files (before ++ after)).value) ∧
    ∀ files' : Files, files.Relisted files' →
      discover files' directories = discover files directories := by
  refine ⟨lookup_discover hproper directories, fun agent action => ?_, ?_, ?_⟩
  · rw [value_discover, Catalog.contains, Catalog.lookup_foldl_insert, Catalog.lookup_empty,
      Option.none_or, List.find?_flatMap, List.findSome?_isSome_iff]
    simp only [Option.isSome_iff_exists, find?_schemasIn hproper]
  · rintro before d after rfl hd
    exact value_discover_again hd
  · intro files' h
    exact discover_relisted h hproper directories

/-- A file that is no schema, in the first directory, does not hide the schema in the second one. -/
theorem discover_declared_later :
    let files : Files := ⟨.dir [
      ("first", .dir [("pkg", .dir [("install.json", .file [91])])]),
      ("second", .dir [("pkg", .dir [("install.json", .file [123, 125])])])], []⟩
    files.root.isProper ∧
    ∃ s, (discover files [⟨"first"⟩, ⟨"second"⟩]).value.lookup "pkg" "install" = some s ∧
      s.path = some ⟨"second/pkg/install.json"⟩ := by
  intro files
  have hproper : files.root.isProper := by decide +kernel
  have hread : ∃ text content, Text.Utf8.decode [123, 125] = .ok text ∧
      SchemaFile.decoder.parse text = .ok content := by
    have hsome : ((Text.Utf8.decode [123, 125]).toOption.bind fun text =>
      (SchemaFile.decoder.parse text).toOption).isSome := by decide +kernel
    revert hsome
    cases Text.Utf8.decode [123, 125] with
    | error e =>
      intro h
      cases h
    | ok text =>
      cases hparse : SchemaFile.decoder.parse text with
      | error e => simp [Except.toOption, hparse]
      | ok content => exact fun _ => ⟨text, content, rfl, hparse⟩
  have hbroken : ∀ text content, Text.Utf8.decode [91] = .ok text →
      SchemaFile.decoder.parse text ≠ .ok content := by
    intro text content hdecode hparse
    have hnone : ((Text.Utf8.decode [91]).toOption.bind fun text =>
      (SchemaFile.decoder.parse text).toOption).isNone := by decide +kernel
    rw [hdecode] at hnone
    simp [Except.toOption, hparse] at hnone
  have hpath : schemaPath ⟨"second"⟩ "pkg" "install" = ⟨"second/pkg/install.json"⟩ := by
    decide +kernel
  have hpath' : schemaPath ⟨"first"⟩ "pkg" "install" = ⟨"first/pkg/install.json"⟩ := by
    decide +kernel
  have hfirst : files.find (schemaPath ⟨"first"⟩ "pkg" "install") = .ok (.file [91]) := by
    rw [hpath']
    rfl
  have hsecond : files.find (schemaPath ⟨"second"⟩ "pkg" "install") = .ok (.file [123, 125]) := by
    rw [hpath]
    rfl
  obtain ⟨text, content, hdecode, hparse⟩ := hread
  have hdeclares : Declares files ⟨"second"⟩ "pkg" "install" (placed _ "pkg" "install" content) :=
    ⟨by decide +kernel, ⟨rfl, rfl⟩, _, text, content, hsecond, hdecode, hparse, rfl⟩
  refine ⟨hproper, _, ((discover_declared hproper _).1 "pkg" "install" _).mpr
    ⟨[⟨"first"⟩], _, [], rfl, hdeclares, fun d hd s hs => ?_⟩, congrArg some hpath⟩
  rw [List.mem_singleton.mp hd] at hs
  obtain ⟨bytes, text, content, hfind, hdecode, hparse, -⟩ := hs.file
  rw [hfirst] at hfind
  cases hfind
  exact hbroken text content hdecode hparse

end Schema

end ScriptedActions
