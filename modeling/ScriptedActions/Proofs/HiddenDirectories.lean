import ScriptedActions.Proofs.DiscoveryLog
import ScriptedActions.Proofs.Thinned

/-!
# Hidden directories of agents

A search passes over what is hidden in the directory of an agent, but goes into that directory
whatever it is called. What it comes to in a hidden one is then refused file by file, since no agent
has a hidden name. So hidden directories add nothing to what is found, and something to what is
reported: a warning for every schema file in them, and one for each that cannot be listed. Both are
said by comparing with the files without these directories (`Schema.discover_withoutHidden`).
-/

set_option autoImplicit false

namespace ScriptedActions

namespace Table

variable {α : Type}

theorem Sorted.filter {t : Table α} (h : t.Sorted) (keep : String × α → Bool) :
    Sorted (List.filter keep t) :=
  h.sublist (List.filter_sublist.map Prod.fst)

theorem ofList_filter {es : List (String × α)} (h : (es.map Prod.fst).Nodup)
    (keep : String × α → Bool) : ofList (es.filter keep) = (ofList es).filter keep := by
  have h' : ((es.filter keep).map Prod.fst).Nodup := h.sublist (List.filter_sublist.map _)
  refine (sorted_ofList _).eq_of_mem ((sorted_ofList es).filter keep) fun e => ?_
  rw [mem_ofList_of_nodup h', List.mem_filter, List.mem_filter, mem_ofList_of_nodup h]

end Table

/-! ## The directories -/

namespace Files

/-- Whether a hidden directory stands at a place, directly below one of several directories. -/
def isHiddenDirectory (f : Files) (directories : List Path) (way : List String) : Bool :=
  (f.root.get? way).any (fun t => t.kind == .directory) && way.getLast?.any Schema.isHidden &&
    directories.any fun d => (f.locate d).toOption == some way.dropLast

/-- The files without the hidden directories directly below several directories. -/
def withoutHidden (f : Files) (directories : List Path) : Files :=
  f.without (f.isHiddenDirectory directories)

variable {f : Files} {directories : List Path} {way : List String} {n : String}

theorem isHidden_of_isHiddenDirectory (h : f.isHiddenDirectory directories (way ++ [n])) :
    Schema.isHidden n := by
  unfold isHiddenDirectory at h
  rw [List.getLast?_concat] at h
  simp only [Bool.and_eq_true] at h
  exact h.1.2

theorem isHiddenDirectory_iff {d : Path} {es : List (String × FileTree)} (hd : d ∈ directories)
    (hway : f.locate d = .ok way) (hdir : f.root.get? way = some (.dir es)) :
    f.isHiddenDirectory directories (way ++ [n]) ↔
      Schema.isHidden n ∧ (Table.get? es n).any (fun t => t.kind == .directory) := by
  have hany : directories.any fun d => (f.locate d).toOption == some way :=
    List.any_eq_true.mpr ⟨d, hd, by rw [hway]; exact beq_self_eq_true _⟩
  unfold isHiddenDirectory
  rw [List.getLast?_concat, List.dropLast_concat, FileTree.get?_append, hdir, hany]
  simp [FileTree.get?_dir, and_comm]

theorem isDirectory_of_withoutHidden {d : Path} (h : (f.withoutHidden directories).isDirectory d) :
    f.isDirectory d := by
  obtain ⟨t, hfind, -⟩ := isDirectory_iff.mp h
  obtain ⟨way, -, hthinned⟩ := find_without hfind
  exact hthinned.isDirectory.symm.trans h

/-- None of several directories is, or is reached through, a hidden directory directly below one of
them. -/
def StayWithoutHidden (f : Files) (directories : List Path) : Prop :=
  ∀ d ∈ directories, f.isDirectory d → (f.withoutHidden directories).isDirectory d

end Files

namespace Schema

variable {files : Files} {d : Path}

/-! ## What a search gives of them -/

/-- What a search gives of the hidden directories directly below a directory. -/
def hiddenItems (files : Files) (d : Path) : List Walk.Item :=
  match files.list d with
  | .ok names =>
    (Table.ofList names).flatMap fun e => if isHidden e.1 then itemsBelow files d e else []
  | .error _ => []

/-- What is reported of an item of a hidden directory. -/
def reportsOf (files : Files) (d : Path) : Walk.Item → List Event
  | .unlisted p e => [Report.unlisted d p e]
  | .entry e =>
    if isCandidate e then
      match load files e.path with
      | .error error => [Report.failed e.path error]
      | .ok _ => []
    else []

/-- What is reported of the hidden directories directly below a directory. -/
def hiddenReports (files : Files) (d : Path) : List Event :=
  (hiddenItems files d).flatMap (reportsOf files d)

/-- No agent has a hidden name. -/
theorem check_of_isHidden {name : String} (h : isHidden name) : Naming.check name ≠ .ok () := by
  intro hcheck
  obtain ⟨cs, hcs⟩ := List.head?_eq_some_iff.mp (beq_iff_eq.mp h)
  exact Naming.allowed_of_check hcheck (c := '.') rfl (hcs ▸ List.mem_cons_self)

theorem load_of_isHidden {a n : String} (ha : Path.IsName a) (hn : Path.IsName n)
    (hhidden : isHidden a) (s : ActionSchema) : load files ((d.join a).join n) ≠ .ok s := by
  intro hload
  obtain ⟨agent, action, text, content, hnames, -⟩ := load_eq_ok.mp hload
  obtain ⟨hdirectory, -, hallowed⟩ := namesOfPath_eq_ok.mp hnames
  rw [Path.directoryName?_join d ha hn] at hdirectory
  cases hdirectory
  exact check_of_isHidden hhidden hallowed.agent

theorem load_of_mem_hidden (hproper : files.root.isProper) {a : String} {kind : FileTree.Kind}
    (ha : Path.IsName a) (hhidden : isHidden a) {e : Walk.Entry}
    (he : .entry e ∈ itemsBelow files d (a, kind)) : ∃ error, load files e.path = .error error := by
  obtain ⟨-, hinside⟩ := mem_itemsBelow.mp he
  obtain ⟨fs, hfs⟩ := dir_of_mem_itemsOfAgent hinside
  obtain ⟨hnames, hentries⟩ := Files.isProper_entries hproper hfs
  obtain ⟨n, t, hnt, -, rfl⟩ := (mem_itemsOfAgent hfs hnames e).mp hinside
  cases hload : load files ((d.join a).join n) with
  | error error => exact ⟨error, rfl⟩
  | ok s => exact absurd hload (load_of_isHidden ha (hentries _ hnt).1 hhidden s)

/-- What a search gives of a hidden directory adds a report at most. -/
theorem addItem_of_isHidden (hproper : files.root.isProper) {a : String} {kind : FileTree.Kind}
    (ha : Path.IsName a) (hhidden : isHidden a) {item : Walk.Item}
    (hitem : item ∈ itemsBelow files d (a, kind)) (c : Catalog) :
    addItem files d c item = ⟨c, reportsOf files d item⟩ := by
  cases item with
  | unlisted p e => rfl
  | entry e =>
    obtain ⟨error, hload⟩ := load_of_mem_hidden hproper ha hhidden hitem
    unfold reportsOf
    by_cases hcandidate : isCandidate e
    · rw [addItem_of_isCandidate d c hcandidate, addFile_of_error hload]
      simp [hcandidate, hload]
    · rw [addItem_of_not_isCandidate d c hcandidate]
      simp only [hcandidate]
      rfl

/-! ## What is left -/

variable {files' : Files} {gone : List String → Bool}

theorem itemsOfAgent_thinned {p : Path} (hproper : files.root.isProper)
    (h : files.Thinned files' p gone) (hgone : ∀ n, gone [n] → isHidden n) :
    itemsOfAgent files' p = itemsOfAgent files p := by
  unfold itemsOfAgent
  rw [h.list]
  cases hlist : files.list p with
  | error e => rfl
  | ok names =>
    obtain ⟨es, hfind, rfl⟩ := Files.list_eq_ok.mp hlist
    have hnames := FileTree.nodup_listed (Files.isProper_entries hproper hfind).1
    show List.map _ _ = List.map _ _
    rw [Table.ofList_filter hnames, List.filter_filter]
    congr 1
    refine List.filter_congr fun e _ => ?_
    by_cases he : gone [e.1]
    · simp [hgone _ he]
    · simp [he]

/-- The directory of an agent that is left adds what it added. -/
theorem addBelow_thinned (hproper : files.root.isProper) {es : List (String × FileTree)}
    (hdir : files.find d = .ok (.dir es)) (h : files.Thinned files' d gone) {a : String}
    {kind : FileTree.Kind} (ha : Path.IsName a) (hkept : kind = .directory → gone [a] = false)
    (hgone : ∀ n, gone [a, n] → isHidden n) (c : Catalog) :
    (itemsBelow files' d (a, kind)).foldlM (addItem files' d) c =
      (itemsBelow files d (a, kind)).foldlM (addItem files d) c := by
  unfold itemsBelow
  dsimp only
  split
  case isFalse => rfl
  case isTrue hdirectory =>
    have hagent : files.Thinned files' (d.join a) fun below => gone (a :: below) :=
      h.join hdir ha (hkept hdirectory)
    rw [itemsOfAgent_thinned hproper hagent hgone]
    refine Logged.foldlM_congr (fun c item hitem => ?_) c
    cases item with
    | unlisted p e => rfl
    | entry e =>
      obtain ⟨fs, hfs⟩ := dir_of_mem_itemsOfAgent hitem
      obtain ⟨hnames, hentries⟩ := Files.isProper_entries hproper hfs
      obtain ⟨n, t, hnt, hhidden, rfl⟩ := (mem_itemsOfAgent hfs hnames e).mp hitem
      have hn : gone [a, n] = false := by
        cases hgone' : gone [a, n] with
        | false => rfl
        | true => rw [hgone n hgone'] at hhidden; cases hhidden
      have hread : files'.read ((d.join a).join n) = files.read ((d.join a).join n) :=
        (hagent.join hfs (hentries _ hnt).1 hn).read
      exact addItem_congr (e := ⟨(d.join a).join n, n, 2, t.kind⟩) hread d c

/-! ## Discovery without them -/

variable {directories : List Path}

theorem hiddenReports_of_error {e : FileError} (h : files.list d = .error e) :
    hiddenReports files d = [] := by
  unfold hiddenReports hiddenItems
  rw [h]
  rfl

theorem hiddenReports_of_ok {names : List (String × FileTree.Kind)} (h : files.list d = .ok names) :
    hiddenReports files d = (Table.ofList names).flatMap fun e =>
      if isHidden e.1 then (itemsBelow files d e).flatMap (reportsOf files d) else [] := by
  unfold hiddenReports hiddenItems
  rw [h, List.flatMap_assoc]
  refine List.flatMap_congr fun e _ => ?_
  split <;> rfl

theorem addBelow_of_isHidden (hproper : files.root.isProper) {a : String} {kind : FileTree.Kind}
    (ha : Path.IsName a) (hhidden : isHidden a) (c : Catalog) :
    Logged.Adds ((itemsBelow files d (a, kind)).flatMap (reportsOf files d))
      ((itemsBelow files d (a, kind)).foldlM (addItem files d) c) (pure c) := by
  have hleft : ∀ item ∈ itemsBelow files d (a, kind), ∀ c : Catalog,
      Logged.Adds (reportsOf files d item) (addItem files d c item) (pure c) := by
    intro item hitem c
    rw [addItem_of_isHidden hproper ha hhidden hitem c]
    exact .of_pure c _
  have hnone := Logged.Adds.foldlM (g := addItem files d) (fun _ => false)
    (fun _ _ h => by cases h) (fun item hitem _ => hleft item hitem) c
  rwa [List.filter_false] at hnone

/-- What is left of a directory of the list that stays one: all but its hidden directories. -/
theorem thinned_withoutHidden (hproper : files.root.isProper) (hd : d ∈ directories)
    (hstays : (files.withoutHidden directories).isDirectory d) {es : List (String × FileTree)}
    (hfind : files.find d = .ok (.dir es)) :
    ∃ gone, files.Thinned (files.withoutHidden directories) d gone ∧
      (∀ e ∈ es, gone [e.1] = (isHidden e.1 && e.2.kind == .directory)) ∧
      ∀ a n, gone [a, n] → isHidden n := by
  obtain ⟨t', hfind', -⟩ := Files.isDirectory_iff.mp hstays
  obtain ⟨way, hway, hthinned⟩ := Files.find_without hfind'
  have hroot : files.root.get? way = some (.dir es) := by
    obtain ⟨way', hway', hroot⟩ := Files.find_eq_ok.mp hfind
    rw [hway] at hway'
    cases hway'
    exact hroot
  have hnames := (Files.isProper_entries hproper hfind).1
  refine ⟨_, hthinned, fun ⟨n, t⟩ hnt => ?_, fun a n h => ?_⟩
  · rw [Bool.eq_iff_iff, Files.isHiddenDirectory_iff hd hway hroot,
      (FileTree.get?_eq_some_iff hnames n t).mpr hnt, Option.any_some, Bool.and_eq_true]
  · have h' : files.isHiddenDirectory directories ((way ++ [a]) ++ [n]) := by
      rwa [List.append_assoc]
    exact Files.isHidden_of_isHiddenDirectory h'

variable {es : List (String × FileTree)}

/-- A search of what is left, entry by entry: hidden directories are passed over, and add their
reports. -/
theorem addSearched_thinned (hproper : files.root.isProper) (hfind : files.find d = .ok (.dir es))
    (hthinned : files.Thinned files' d gone)
    (hbelow : ∀ e ∈ es, gone [e.1] = (isHidden e.1 && e.2.kind == .directory))
    (hinside : ∀ a n, gone [a, n] → isHidden n) (c : Catalog) :
    Logged.Adds (hiddenReports files d) ((search.items files d).foldlM (addItem files d) c)
      ((search.items files' d).foldlM (addItem files' d) c) := by
  obtain ⟨hnames, hentries⟩ := Files.isProper_entries hproper hfind
  have hdirectory : files.isDirectory d := Files.isDirectory_iff.mpr ⟨_, hfind, rfl⟩
  have hlist := Files.list_of_find_dir hfind
  have hlist' : files'.list d =
      .ok ((es.map fun e => (e.1, e.2.kind)).filter fun e => !gone [e.1]) := by
    rw [hthinned.list, hlist]
    rfl
  rw [items_search hdirectory, items_search (hthinned.isDirectory.trans hdirectory), hlist, hlist',
    hiddenReports_of_ok hlist]
  dsimp only
  rw [Table.ofList_filter (FileTree.nodup_listed hnames), Logged.foldlM_flatMap,
    Logged.foldlM_flatMap]
  -- what is left adds what it added; what is taken out is hidden, and adds its reports only
  refine Logged.Adds.foldlM _ (fun ⟨a, k⟩ he hkept c => ?_) (fun ⟨a, k⟩ he hleft c => ?_) c
  all_goals
    obtain ⟨u, hau, rfl⟩ := (FileTree.mem_listed hnames).mp he
    have hgone : gone [a] = (isHidden a && u.kind == .directory) := hbelow (a, u) hau
    have ha : Path.IsName a := (hentries _ hau).1
  · have hnone : (if isHidden a then
        (itemsBelow files d (a, u.kind)).flatMap (reportsOf files d) else []) = [] := by
      split
      case isTrue hhidden =>
        have hother : u.kind ≠ .directory := fun hkind => by
          simp [hgone, hhidden, hkind] at hkept
        exact congrArg (List.flatMap (reportsOf files d)) (if_neg hother)
      case isFalse => rfl
    rw [hnone, addBelow_thinned hproper hfind hthinned ha (fun _ => by simpa using hkept)
      (hinside a) c]
    exact .refl _
  · have hhidden : isHidden a := by
      have hgone' : gone [a] := by simpa using hleft
      rw [hgone, Bool.and_eq_true] at hgone'
      exact hgone'.1
    rw [if_pos hhidden]
    exact addBelow_of_isHidden hproper ha hhidden c

/-- **Without the hidden directories, a directory adds what it added**, less their reports. -/
theorem addDirectory_withoutHidden (hproper : files.root.isProper) (hd : d ∈ directories)
    (hstays : files.isDirectory d → (files.withoutHidden directories).isDirectory d) (c : Catalog) :
    Logged.Adds (hiddenReports files d) (addDirectory files c d)
      (addDirectory (files.withoutHidden directories) c d) := by
  unfold addDirectory
  by_cases hdirectory : files.isDirectory d
  · have hdirectory' := hstays hdirectory
    rw [if_pos hdirectory, if_pos hdirectory']
    obtain ⟨t, hfind, hkind⟩ := Files.isDirectory_iff.mp hdirectory
    rcases FileTree.kind_eq_directory hkind with ⟨es, rfl⟩ | rfl
    · obtain ⟨gone, hthinned, hbelow, hinside⟩ :=
        thinned_withoutHidden hproper hd hdirectory' hfind
      exact addSearched_thinned hproper hfind hthinned hbelow hinside c
    · -- a directory that cannot be listed is reported so in either run
      obtain ⟨t', hfind', -⟩ := Files.isDirectory_iff.mp hdirectory'
      obtain ⟨way, -, hthinned⟩ := Files.find_without hfind'
      have hlist := Files.list_of_find_locked hfind
      have hlist' : (files.withoutHidden directories).list d = .error .permissionDenied :=
        hthinned.list.trans (by rw [hlist]; rfl)
      rw [items_search hdirectory, items_search hdirectory', hlist, hlist',
        hiddenReports_of_error hlist]
      exact .refl _
  · rw [if_neg hdirectory, if_neg (mt Files.isDirectory_of_withoutHidden hdirectory)]
    cases hlist : files.list d with
    | error e =>
      rw [hiddenReports_of_error hlist]
      exact .refl _
    | ok names =>
      obtain ⟨es, hfind, -⟩ := Files.list_eq_ok.mp hlist
      exact absurd (Files.isDirectory_iff.mpr ⟨_, hfind, rfl⟩) hdirectory

theorem hiddenReports_eq_nil_iff (hproper : files.root.isProper) : hiddenReports files d = [] ↔
    ∀ item ∈ hiddenItems files d, ∃ e, item = .entry e ∧ ¬ isCandidate e := by
  unfold hiddenReports
  rw [List.flatMap_eq_nil_iff]
  refine forall₂_congr fun item hitem => ?_
  cases item with
  | unlisted p e => simp [reportsOf]
  | entry e =>
    unfold hiddenItems at hitem
    split at hitem
    case h_2 => cases hitem
    case h_1 names hlist =>
      obtain ⟨⟨a, kind⟩, ha, hinside⟩ := List.mem_flatMap.mp hitem
      split at hinside
      case isFalse => cases hinside
      case isTrue hhidden =>
        obtain ⟨es, hfind, rfl⟩ := Files.list_eq_ok.mp hlist
        obtain ⟨hnames, hentries⟩ := Files.isProper_entries hproper hfind
        obtain ⟨u, hau, -⟩ := (FileTree.mem_listed hnames).mp ha
        obtain ⟨error, hload⟩ := load_of_mem_hidden hproper (hentries _ hau).1 hhidden hinside
        unfold reportsOf
        by_cases hcandidate : isCandidate e <;> simp [hcandidate, hload]

theorem adds_withoutHidden (hproper : files.root.isProper)
    (hstay : files.StayWithoutHidden directories) :
    Logged.Adds (directories.flatMap (hiddenReports files)) (discover files directories)
      (discover (files.withoutHidden directories) directories) := by
  have hdirectories := Logged.Adds.foldlM (f := addDirectory files) (fun _ => true)
    (fun d hd _ c => addDirectory_withoutHidden hproper hd (hstay d hd) c)
    (fun _ _ h => by cases h) .empty
  rw [List.filter_true] at hdirectories
  exact hdirectories.andThen _

/-- A directory that is no longer there is reported as missing. -/
theorem stay_of_events_eq (h : (discover files directories).events =
    (discover (files.withoutHidden directories) directories).events) :
    files.StayWithoutHidden directories := by
  have hcount := (isAccount_discover files directories).missing
  rw [h, (isAccount_discover _ directories).missing, List.countP_eq_length_filter,
    List.countP_eq_length_filter] at hcount
  have hsublist := List.monotone_filter_right directories
    (p := fun d => !files.isDirectory d)
    (q := fun d => !(files.withoutHidden directories).isDirectory d) fun d hd => by
      simp only [Bool.not_eq_true', Bool.eq_false_iff] at hd ⊢
      exact mt Files.isDirectory_of_withoutHidden hd
  -- nothing becomes a directory without them, so as many that are missing are the same ones
  have hsame := hsublist.eq_of_length hcount.symm
  intro d hd hdirectory
  by_contra hmissing
  have hmem : d ∈ directories.filter fun d => !(files.withoutHidden directories).isDirectory d :=
    List.mem_filter.mpr ⟨hd, by simpa using hmissing⟩
  rw [← hsame, List.mem_filter] at hmem
  simp [hdirectory] at hmem

/-- **Hidden directories of agents add nothing to what is found, and something to what is
reported.** Compared with the files without them, discovery gives the same catalog, and its log is
the same with some warnings in between: one for each schema file in a hidden directory and for each
hidden directory that cannot be listed. That is, if what is searched is still there without them.
The logs are the same if and only if it is and there are no such warnings. -/
theorem discover_withoutHidden (hproper : files.root.isProper) (directories : List Path) :
    let full := discover files directories
    let shown := discover (files.withoutHidden directories) directories
    (files.StayWithoutHidden directories →
      full.value = shown.value ∧ shown.events.Sublist full.events ∧
        full.events.Perm (shown.events ++ directories.flatMap (hiddenReports files))) ∧
    (full.events = shown.events ↔ files.StayWithoutHidden directories ∧
      ∀ d ∈ directories, ∀ item ∈ hiddenItems files d, ∃ e, item = .entry e ∧ ¬ isCandidate e) := by
  intro full shown
  have hreports : directories.flatMap (hiddenReports files) = [] ↔
      ∀ d ∈ directories, ∀ item ∈ hiddenItems files d, ∃ e, item = .entry e ∧ ¬ isCandidate e :=
    List.flatMap_eq_nil_iff.trans (forall₂_congr fun d _ => hiddenReports_eq_nil_iff hproper)
  refine ⟨fun hstay => ?_, fun heq => ?_, fun ⟨hstay, hnone⟩ => ?_⟩
  · have hadds := adds_withoutHidden hproper hstay
    exact ⟨hadds.value, hadds.sublist, hadds.perm⟩
  · have hstay := stay_of_events_eq heq
    have hadds := adds_withoutHidden hproper hstay
    exact ⟨hstay, hreports.mp (hadds.events_eq_iff.mp heq)⟩
  · have hadds := adds_withoutHidden hproper hstay
    exact hadds.events_eq_iff.mpr (hreports.mpr hnone)

/-- A schema file in a hidden directory is reported, and makes no difference to the catalog. -/
theorem discover_withoutHidden_reported :
    let files : Files := ⟨.dir [("s", .dir [
      (".hidden", .dir [("install.json", .file [123, 125])]),
      ("pkg", .dir [("install.json", .file [123, 125])])])], []⟩
    files.root.isProper ∧
    (discover files [⟨"s"⟩]).value = (discover (files.withoutHidden [⟨"s"⟩]) [⟨"s"⟩]).value ∧
    (discover files [⟨"s"⟩]).events ≠
      (discover (files.withoutHidden [⟨"s"⟩]) [⟨"s"⟩]).events := by
  intro files
  have hproper : files.root.isProper := by decide +kernel
  have hstay : files.StayWithoutHidden [⟨"s"⟩] := by
    intro d hd _
    rw [List.mem_singleton.mp hd]
    decide +kernel
  have hfile : (hiddenItems files ⟨"s"⟩).any isSchemaFile := by decide +kernel
  obtain ⟨hsame, hlog⟩ := discover_withoutHidden hproper [⟨"s"⟩]
  refine ⟨hproper, (hsame hstay).1, fun heq => ?_⟩
  obtain ⟨item, hitem, hschema⟩ := List.any_eq_true.mp hfile
  obtain ⟨e, rfl, hother⟩ := (hlog.mp heq).2 _ (.head _) item hitem
  exact hother hschema

end Schema

end ScriptedActions
