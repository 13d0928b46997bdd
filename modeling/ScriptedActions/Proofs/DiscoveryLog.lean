import ScriptedActions.Proofs.Decoded
import ScriptedActions.Proofs.Discovery

/-!
# The log of discovery

Discovery tells of everything it comes to. A directory that is missing is reported once; of one that
is searched the log goes through what the search gives, item by item (`Schema.AccountsFor`). A
schema file has one outcome: it could not be loaded, it was loaded, or its action has a schema
already. The warnings about the defaults of its outputs stand in front of the outcome, in the order
of the outputs.

How many schemas were loaded is the size of the catalog, since an insertion adds a pair of names if
and only if it is new (`Catalog.pairs_insert`).
-/

set_option autoImplicit false

namespace ScriptedActions

/-! ## Outputs in their order -/

open Json.Decoder Json.Reader in
theorem OutputField.decoder_gives {depth : Nat} :
    OutputField.decoder.read.Gives depth Anything := by
  refine Gives.weaken (record_gives (I := fun _ _ => True) "OutputField" trivial ?_)
    fun _ _ => trivial
  intro k hk f hf
  simp only [List.mem_cons, List.not_mem_nil, or_false] at hf
  rcases hf with rfl | rfl | rfl | rfl
  · exact stores_given text_gives fun _ _ _ _ _ => trivial
  · exact stores_given (gives_value k) fun _ _ _ _ _ => trivial
  · exact stores_given text_gives fun _ _ _ _ _ => trivial
  · exact stores_given text_gives fun _ _ _ _ _ => trivial

open Json.Decoder Json.Reader in
/-- The outputs of a schema file stand in the order of their names. -/
theorem SchemaFile.decoder_gives {depth : Nat} :
    SchemaFile.decoder.read.Gives depth fun content => content.outputs.Sorted := by
  refine Gives.weaken (record_gives (I := fun _ content => content.outputs.Sorted) "SchemaFile"
    Table.sorted_nil ?_) fun _ ⟨_, hsorted, _⟩ => hsorted
  intro k hk f hf
  simp only [List.mem_cons, List.not_mem_nil, or_false] at hf
  rcases hf with rfl | rfl | rfl
  · exact stores_given text_gives fun _ _ _ _ hsorted => hsorted
  · exact stores_given (optional_gives (map_gives _ ((whole_gives _ _ _).weaken fun _ _ => trivial)))
      fun _ _ _ _ hsorted => hsorted
  · exact stores_given (table_gives fun _ _ => OutputField.decoder_gives)
      fun _ hsorted _ _ _ => hsorted

theorem Schema.outputs_of_load {files : Files} {p : Path} {s : ActionSchema}
    (h : Schema.load files p = .ok s) : s.outputs.Sorted := by
  obtain ⟨agent, action, text, content, -, -, hparse, rfl⟩ := Schema.load_eq_ok.mp h
  exact Json.Reader.of_run_ok (P := fun content => content.outputs.Sorted)
    SchemaFile.decoder_gives hparse

/-- Some fields are the outputs whose declared type does not accept their default, in the order of
their names. -/
structure ActionSchema.Mistypes (s : ActionSchema) (fields : List String) : Prop where
  inOrder : fields.Pairwise (· < ·)
  mem : ∀ n, n ∈ fields ↔ ∃ o, s.outputs.get? n = some o ∧ o.type.accepts o.default = false

theorem ActionSchema.mistypes_mistypedDefaults {s : ActionSchema} (h : s.outputs.Sorted) :
    s.Mistypes s.mistypedDefaults where
  inOrder := h.sublist (List.filter_sublist.map Prod.fst)
  mem n := by
    unfold mistypedDefaults OutputField.isWellTyped
    simp only [List.mem_map, List.mem_filter, Prod.exists, exists_and_right, exists_eq_right,
      Bool.not_eq_true', h.mem_iff]

namespace Schema

/-! ## Events -/

namespace Report

def missing (d : Path) : Event :=
  ⟨.warn, "Schema directory not found, skipping", Table.ofList [("dir", d.text)]⟩

def unlisted (d p : Path) (e : FileError) : Event :=
  ⟨.warn, "Failed to read schema directory entry", Table.ofList
    [("dir", d.text), ("error", "IO error for operation on " ++ p.text ++ ": " ++ e.message)]⟩

def failed (p : Path) (e : SchemaError) : Event :=
  ⟨.warn, "Failed to load schema", Table.ofList [("path", p.text), ("error", e.message)]⟩

def mismatch (s : ActionSchema) (field : String) : Event :=
  ⟨.warn, "Output default does not match its declared type", Table.ofList
    [("agent", s.agent), ("action", s.action), ("field", field)]⟩

def loaded (agent action : String) : Event :=
  ⟨.debug, "Loaded action schema", Table.ofList [("agent", agent), ("action", action)]⟩

def duplicate (s : ActionSchema) : Event :=
  ⟨.warn, "Duplicate action schema ignored", Table.ofList
    [("agent", s.agent), ("action", s.action),
      ("path", s.path.elim "None" fun p => "Some(" ++ Text.quoted p.text ++ ")")]⟩

def complete (agents actions : Nat) : Event :=
  ⟨.info, "Schema discovery complete", Table.ofList
    [("agents", toString agents), ("actions", toString actions)]⟩

def isLoaded (e : Event) : Bool := e.message == "Loaded action schema"

/-- Whether an event tells what became of a schema file. -/
def isOutcome (e : Event) : Bool :=
  isLoaded e || e.message == "Duplicate action schema ignored" || e.message == "Failed to load schema"

def isMissing (e : Event) : Bool := e.message == "Schema directory not found, skipping"

theorem loaded_inj {agent action agent' action' : String} :
    loaded agent action = loaded agent' action' ↔ agent = agent' ∧ action = action' := by
  have hfields (agent action : String) : Table.ofList [("agent", agent), ("action", action)] =
      [("action", action), ("agent", agent)] := by
    simp +decide only [Table.ofList, Table.insert, List.foldl, if_true, if_false]
  unfold loaded
  simp [hfields, and_comm]

end Report

variable {files : Files} {d : Path} {s : ActionSchema}

theorem addFile_of_error {c : Catalog} {p : Path} {e : SchemaError} (h : load files p = .error e) :
    addFile files c p = ⟨c, [Report.failed p e]⟩ := by
  unfold addFile
  rw [h]
  rfl

theorem addFile_of_ok {c : Catalog} {p : Path} (h : load files p = .ok s) :
    addFile files c p = add c s := by
  unfold addFile
  rw [h]

theorem addItem_unlisted (c : Catalog) (p : Path) (e : FileError) :
    addItem files d c (.unlisted p e) = ⟨c, [Report.unlisted d p e]⟩ := rfl

/-- What is reported of a schema: its defaults, and then what became of it. -/
theorem events_add (c : Catalog) (s : ActionSchema) :
    (add c s).events = s.mistypedDefaults.map (Report.mismatch s) ++
      [if c.contains s.agent s.action then Report.duplicate s
        else Report.loaded s.agent s.action] := by
  unfold add
  dsimp only
  rw [Logged.events_bind, Logged.events_mapM (Report.mismatch s) fun _ => rfl]
  congr 1
  split <;> rfl

/-! ## Accounts -/

/-- What the log says of an item that a search gives. -/
inductive Accounts (files : Files) (d : Path) : Walk.Item → List Event → Prop
  | passed {e : Walk.Entry} (hother : ¬ isCandidate e) : Accounts files d (.entry e) []
  | unlisted (p : Path) (e : FileError) : Accounts files d (.unlisted p e) [Report.unlisted d p e]
  | failed {e : Walk.Entry} {error : SchemaError} (hcandidate : isCandidate e)
      (hload : load files e.path = .error error) :
      Accounts files d (.entry e) [Report.failed e.path error]
  | taken {e : Walk.Entry} {s : ActionSchema} {fields : List String} {outcome : Event}
      (hcandidate : isCandidate e) (hload : load files e.path = .ok s) (hfields : s.Mistypes fields)
      (houtcome : outcome = Report.loaded s.agent s.action ∨ outcome = Report.duplicate s) :
      Accounts files d (.entry e) (fields.map (Report.mismatch s) ++ [outcome])

/-- What the log says of a directory. -/
inductive AccountsFor (files : Files) : Path → List Event → Prop
  | missing {d : Path} (h : ¬ files.isDirectory d) : AccountsFor files d [Report.missing d]
  | searched {d : Path} {blocks : List (List Event)} (h : files.isDirectory d)
      (hblocks : List.Forall₂ (Accounts files d) (search.items files d) blocks) :
      AccountsFor files d blocks.flatten

theorem accounts_addItem (c : Catalog) (item : Walk.Item) :
    Accounts files d item (addItem files d c item).events := by
  cases item with
  | unlisted p e => exact .unlisted p e
  | entry e =>
    by_cases hcandidate : isCandidate e
    · rw [addItem_of_isCandidate d c hcandidate]
      cases hload : load files e.path with
      | error error =>
        rw [addFile_of_error hload]
        exact .failed hcandidate hload
      | ok s =>
        rw [addFile_of_ok hload, events_add]
        refine .taken hcandidate hload (s.mistypes_mistypedDefaults (outputs_of_load hload)) ?_
        split
        · exact .inr rfl
        · exact .inl rfl
    · rw [addItem_of_not_isCandidate d c hcandidate]
      exact .passed hcandidate

theorem accountsFor_addDirectory (c : Catalog) (d : Path) :
    AccountsFor files d (addDirectory files c d).events := by
  unfold addDirectory
  split
  case isTrue h =>
    have hitems (c : Catalog) (item : Walk.Item) (_ : item ∈ search.items files d) :
        Accounts files d item (addItem files d c item).events := accounts_addItem c item
    obtain ⟨blocks, hblocks, hevents⟩ := Logged.events_foldlM hitems c
    rw [hevents]
    exact .searched h hblocks
  case isFalse h => exact .missing h

/-! ## Counts -/

/-- Whether an item of a search is a schema file. -/
def isSchemaFile : Walk.Item → Bool
  | .entry e => isCandidate e
  | .unlisted _ _ => false

variable {item : Walk.Item} {log : List Event}

theorem countP_mismatches {p : Event → Bool} (hp : ∀ field, p (Report.mismatch s field) = false)
    (fields : List String) : (fields.map (Report.mismatch s)).countP p = 0 := by
  refine List.countP_eq_zero.mpr fun e he => ?_
  obtain ⟨field, -, rfl⟩ := List.mem_map.mp he
  simp [hp]

/-- A schema file has one outcome, and nothing else has one. -/
theorem Accounts.countP_isOutcome (h : Accounts files d item log) :
    log.countP Report.isOutcome = [item].countP isSchemaFile := by
  rw [List.countP_singleton]
  cases h with
  | passed hother => simp [isSchemaFile, hother]
  | unlisted p e => rfl
  | failed hcandidate => simp [isSchemaFile, hcandidate, Report.isOutcome, Report.failed]
  | taken hcandidate hload hfields houtcome =>
    rw [List.countP_append, countP_mismatches fun _ => rfl]
    rcases houtcome with rfl | rfl
    · simp [isSchemaFile, hcandidate, Report.isOutcome, Report.isLoaded, Report.loaded]
    · simp [isSchemaFile, hcandidate, Report.isOutcome, Report.duplicate]

theorem Accounts.countP_isMissing (h : Accounts files d item log) :
    log.countP Report.isMissing = 0 := by
  cases h with
  | passed => rfl
  | unlisted => rfl
  | failed => rfl
  | taken hcandidate hload hfields houtcome =>
    rw [List.countP_append, countP_mismatches fun _ => rfl]
    rcases houtcome with rfl | rfl <;> rfl

theorem countP_flatten {α β : Type} {R : α → List Event → Prop} {p : Event → Bool} {q : β → Bool}
    {g : α → List β} (h : ∀ a block, R a block → block.countP p = (g a).countP q) {items : List α}
    {blocks : List (List Event)} (hblocks : List.Forall₂ R items blocks) :
    blocks.flatten.countP p = (items.flatMap g).countP q := by
  induction hblocks with
  | nil => rfl
  | cons hblock _ ih =>
    rw [List.flatten_cons, List.countP_append, h _ _ hblock, ih, List.flatMap_cons,
      List.countP_append]

theorem AccountsFor.countP_isOutcome (h : AccountsFor files d log) :
    log.countP Report.isOutcome = (itemsIn files d).countP isSchemaFile := by
  unfold itemsIn
  cases h with
  | missing h =>
    rw [if_neg h]
    rfl
  | searched h hblocks =>
    rw [if_pos h, countP_flatten (fun _ _ h => h.countP_isOutcome) hblocks, List.flatMap_singleton']

theorem AccountsFor.countP_isMissing (h : AccountsFor files d log) :
    log.countP Report.isMissing = [d].countP fun d => !files.isDirectory d := by
  cases h with
  | missing h => simp [h, Report.isMissing, Report.missing]
  | searched h hblocks =>
    have hnone : ∀ item block, Accounts files d item block →
        block.countP Report.isMissing = [item].countP fun _ => false :=
      fun item block h => h.countP_isMissing
    rw [countP_flatten hnone hblocks]
    simp [h]

/-- A log tells how often a schema was loaded. -/
structure Tallies (c : Catalog) (log : List Event) : Prop where
  inOrder : c.InOrder
  hasActions : c.HasActions
  size : log.countP Report.isLoaded = c.size
  each : ∀ agent action,
    log.count (Report.loaded agent action) = if c.contains agent action then 1 else 0

namespace Tallies

variable {c : Catalog} {log : List Event}

theorem empty : Tallies .empty [] where
  inOrder := Catalog.inOrder_empty
  hasActions agent h := by cases h
  size := rfl
  each _ _ := rfl

theorem quiet (h : Tallies c log) {events : List Event}
    (hother : ∀ e ∈ events, Report.isLoaded e = false) : Tallies c (log ++ events) where
  inOrder := h.inOrder
  hasActions := h.hasActions
  size := by
    rw [List.countP_append, h.size, List.countP_eq_zero.mpr fun e he => by simp [hother e he]]
    rfl
  each agent action := by
    have hnone : events.count (Report.loaded agent action) = 0 :=
      List.count_eq_zero.mpr fun hmem => Bool.false_ne_true (hother _ hmem).symm
    rw [List.count_append, h.each, hnone]
    rfl

theorem loaded (h : Tallies c log) (hnew : c.contains s.agent s.action = false) :
    Tallies (c.insert s) (log ++ [Report.loaded s.agent s.action]) where
  inOrder := h.inOrder.insert s
  hasActions := h.hasActions.insert s
  size := by
    rw [List.countP_append, h.size, Catalog.size_insert h.inOrder, hnew]
    rfl
  each agent action := by
    rw [List.count_append, h.each, List.count_singleton]
    by_cases hnames : agent = s.agent ∧ action = s.action
    · obtain ⟨rfl, rfl⟩ := hnames
      have hinserted := (Catalog.contains_insert c s s.agent s.action).mpr (.inr ⟨rfl, rfl⟩)
      simp [hnew, hinserted]
    · have hother : Report.loaded s.agent s.action ≠ Report.loaded agent action := by
        intro heq
        obtain ⟨hagent, haction⟩ := Report.loaded_inj.mp heq
        exact hnames ⟨hagent.symm, haction.symm⟩
      have hsame : (c.insert s).contains agent action = c.contains agent action := by
        rw [Bool.eq_iff_iff, Catalog.contains_insert]
        exact or_iff_left hnames
      simp [hother, hsame]

theorem add (h : Tallies c log) (s : ActionSchema) :
    Tallies (Schema.add c s).value (log ++ (Schema.add c s).events) := by
  have hmismatches : Tallies c (log ++ s.mistypedDefaults.map (Report.mismatch s)) := by
    refine h.quiet fun e he => ?_
    obtain ⟨field, -, rfl⟩ := List.mem_map.mp he
    rfl
  rw [value_add, events_add, ← List.append_assoc]
  cases hnew : c.contains s.agent s.action with
  | true =>
    have hsame : c.insert s = c := if_pos hnew
    rw [hsame]
    exact hmismatches.quiet fun e he => by rw [List.mem_singleton.mp he]; rfl
  | false => exact hmismatches.loaded hnew

theorem addItem (h : Tallies c log) (item : Walk.Item) :
    Tallies (Schema.addItem files d c item).value
      (log ++ (Schema.addItem files d c item).events) := by
  cases item with
  | unlisted p e =>
    rw [addItem_unlisted]
    exact h.quiet fun e he => by rw [List.mem_singleton.mp he]; rfl
  | entry e =>
    by_cases hcandidate : isCandidate e
    · rw [addItem_of_isCandidate d c hcandidate]
      cases hload : load files e.path with
      | error error =>
        rw [addFile_of_error hload]
        exact h.quiet fun e he => by rw [List.mem_singleton.mp he]; rfl
      | ok s =>
        rw [addFile_of_ok hload]
        exact h.add s
    · rw [addItem_of_not_isCandidate d c hcandidate]
      exact h.quiet fun e he => by cases he

theorem addDirectory (h : Tallies c log) (d : Path) :
    Tallies (Schema.addDirectory files c d).value
      (log ++ (Schema.addDirectory files c d).events) := by
  unfold Schema.addDirectory
  split
  · exact Logged.foldlM_run (fun c log item _ h => h.addItem item) log h
  · exact h.quiet fun e he => by rw [List.mem_singleton.mp he]; rfl

end Tallies

/-- What a log has to say of a discovery, and a catalog to hold, to account for all there was. -/
structure IsAccount (files : Files) (directories : List Path) (c : Catalog) (log : List Event) :
    Prop where
  /-- The log goes through the directories and ends with the numbers of agents and of actions. -/
  told : ∃ blocks, List.Forall₂ (AccountsFor files) directories blocks ∧
    log = blocks.flatten ++ [Report.complete c.agentNames.length c.pairs.length]
  /-- There are as many outcomes as schema files. -/
  outcomes : log.countP Report.isOutcome =
    (directories.flatMap (itemsIn files)).countP isSchemaFile
  /-- There are as many warnings as directories that are missing. -/
  missing : log.countP Report.isMissing = directories.countP fun d => !files.isDirectory d
  /-- A schema is reported as loaded once for each pair of names that is bound. -/
  loaded : ∀ agent action,
    log.count (Report.loaded agent action) = if c.contains agent action then 1 else 0
  /-- As many schemas are reported as loaded as the catalog holds. -/
  size : log.countP Report.isLoaded = c.size ∧ c.size = c.pairs.length
  /-- The pairs are those that are bound, and the agents those that have an action. -/
  pairs : c.pairs.Nodup ∧ ∀ agent action, (agent, action) ∈ c.pairs ↔ c.contains agent action
  agents : c.agentNames.Nodup ∧ ∀ agent, agent ∈ c.agentNames ↔ ∃ action, c.contains agent action

/-- **The log of discovery accounts for everything.** It goes through the directories in their
order; a missing one has a single warning, and a searched one has, for every item that the search
gives, what `Accounts` says: one outcome for each schema file, behind the warnings about its
defaults. -/
theorem isAccount_discover (files : Files) (directories : List Path) :
    IsAccount files directories (discover files directories).value
      (discover files directories).events := by
  have hdirectories (c : Catalog) (d : Path) (_ : d ∈ directories) :
      AccountsFor files d (addDirectory files c d).events := accountsFor_addDirectory c d
  obtain ⟨blocks, hblocks, hevents⟩ := Logged.events_foldlM hdirectories .empty
  have htallies : Tallies (discover files directories).value (discover files directories).events := by
    have hstep (c : Catalog) (log : List Event) (d : Path) (_ : d ∈ directories)
        (h : Tallies c log) : Tallies (addDirectory files c d).value
          (log ++ (addDirectory files c d).events) := h.addDirectory d
    have hrun := Logged.foldlM_run hstep [] Tallies.empty
    exact hrun.quiet fun e he => by rw [List.mem_singleton.mp he]; rfl
  have htold : (discover files directories).events = blocks.flatten ++
      [Report.complete (discover files directories).value.agentNames.length
        (discover files directories).value.pairs.length] := by
    rw [Catalog.length_pairs, ← hevents]
    rfl
  exact {
    told := ⟨blocks, hblocks, htold⟩
    outcomes := by
      rw [htold, List.countP_append, countP_flatten (fun _ _ h => h.countP_isOutcome) hblocks]
      rfl
    missing := by
      rw [htold, List.countP_append, countP_flatten (fun _ _ h => h.countP_isMissing) hblocks,
        List.flatMap_singleton']
      rfl
    loaded := htallies.each
    size := ⟨htallies.size, (Catalog.length_pairs _).symm⟩
    pairs := ⟨Catalog.nodup_pairs htallies.inOrder, Catalog.mem_pairs htallies.inOrder⟩
    agents := ⟨htallies.inOrder.agents.imp fun hlt => hlt.ne,
      Catalog.mem_agentNames htallies.hasActions⟩ }

end Schema

end ScriptedActions
