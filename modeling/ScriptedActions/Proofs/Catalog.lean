import Mathlib.Data.List.Nodup
import ScriptedActions.Proofs.Reports
import ScriptedActions.Proofs.Table
import ScriptedActions.Schema.Discovery

/-!
# Catalogs that are found

Discovery makes a catalog from the empty one by nothing but `Catalog.insert`, and inserts only what
`Schema.load` makes of a file. So what holds of the empty catalog and is kept by those insertions
holds whatever was found, in whatever order (`Schema.discover_keeps`). Two things are: the tables of
a catalog are sorted, and its schemas are stored under their own names, which are valid.
-/

set_option autoImplicit false

namespace ScriptedActions

namespace Catalog

/-- The agents of a catalog are listed in their order, and so are the actions of each of them. -/
structure InOrder (c : Catalog) : Prop where
  agents : c.agents.Sorted
  actions : ∀ agent, (c.actionsOf agent).Sorted

theorem inOrder_empty : empty.InOrder := ⟨Table.sorted_nil, fun _ => Table.sorted_nil⟩

theorem InOrder.insert {c : Catalog} (h : c.InOrder) (s : ActionSchema) : (c.insert s).InOrder := by
  unfold Catalog.insert
  split
  · exact h
  · refine ⟨h.agents.insert _ _, fun agent => ?_⟩
    unfold actionsOf
    rw [Table.get?_insert]
    split
    · exact (h.actions s.agent).insert _ _
    · exact h.actions agent

/-- An insertion adds a schema under its names, unless there is one. -/
theorem lookup_insert (c : Catalog) (s : ActionSchema) (agent action : String) :
    (c.insert s).lookup agent action =
      (c.lookup agent action).or (if agent = s.agent ∧ action = s.action then some s else none) := by
  unfold Catalog.insert
  split
  case isTrue hknown =>
    split
    case isTrue hnames =>
      obtain ⟨rfl, rfl⟩ := hnames
      obtain ⟨old, hold⟩ := Option.isSome_iff_exists.mp hknown
      rw [hold, Option.some_or]
    case isFalse => rw [Option.or_none]
  case isFalse hnew =>
    have hnone : c.lookup s.agent s.action = none := by
      simpa [Catalog.contains] using hnew
    unfold lookup actionsOf
    rw [Table.get?_insert]
    by_cases hagent : agent = s.agent
    · subst hagent
      rw [if_pos rfl, Option.getD_some, Table.get?_insert]
      by_cases haction : action = s.action
      · subst haction
        rw [if_pos rfl, if_pos ⟨rfl, rfl⟩, ← actionsOf, ← lookup, hnone, Option.none_or]
      · simp [haction]
    · simp [hagent]

theorem lookup_empty (agent action : String) : empty.lookup agent action = none := rfl

/-- Of several schemas the first one with the names of an action is taken. -/
theorem lookup_foldl_insert (c : Catalog) (schemas : List ActionSchema) (agent action : String) :
    (schemas.foldl insert c).lookup agent action =
      (c.lookup agent action).or
        (schemas.find? fun s => agent = s.agent ∧ action = s.action) := by
  induction schemas generalizing c with
  | nil => exact Option.or_none.symm
  | cons s rest ih =>
    rw [List.foldl_cons, ih, lookup_insert, Option.or_assoc, List.find?_cons]
    by_cases hnames : agent = s.agent ∧ action = s.action
    · rw [if_pos hnames, decide_eq_true hnames, Option.some_or]
    · rw [if_neg hnames, decide_eq_false hnames, Option.none_or]

theorem contains_foldl_insert {c : Catalog} {schemas : List ActionSchema} {s : ActionSchema}
    (h : s ∈ schemas) : (schemas.foldl insert c).contains s.agent s.action := by
  unfold contains
  rw [lookup_foldl_insert, Option.isSome_or, Bool.or_eq_true, List.find?_isSome]
  exact .inr ⟨s, h, decide_eq_true ⟨rfl, rfl⟩⟩

/-- Schemas of actions that have one are not taken. -/
theorem foldl_insert_of_contains {c : Catalog} {schemas : List ActionSchema}
    (h : ∀ s ∈ schemas, c.contains s.agent s.action) : schemas.foldl insert c = c := by
  induction schemas with
  | nil => rfl
  | cons s rest ih =>
    obtain ⟨hs, hrest⟩ := List.forall_mem_cons.mp h
    have hinsert : c.insert s = c := if_pos hs
    rw [List.foldl_cons, hinsert, ih hrest]

/-- Every schema stands under its own names, and they are names that are allowed. -/
def IsNamed (c : Catalog) : Prop :=
  ∀ agent action s, c.lookup agent action = some s →
    s.agent = agent ∧ s.action = action ∧ Naming.check agent = .ok () ∧
      Naming.check action = .ok ()

theorem isNamed_empty : empty.IsNamed := nofun

theorem IsNamed.insert {c : Catalog} (h : c.IsNamed) {s : ActionSchema}
    (hagent : Naming.check s.agent = .ok ()) (haction : Naming.check s.action = .ok ()) :
    (c.insert s).IsNamed := by
  intro agent action found hfound
  rw [lookup_insert, Option.or_eq_some_iff] at hfound
  rcases hfound with hfound | ⟨-, hfound⟩
  · exact h agent action found hfound
  · split at hfound
    case isTrue hnames =>
      obtain ⟨rfl, rfl⟩ := hnames
      cases hfound
      exact ⟨rfl, rfl, hagent, haction⟩
    case isFalse => cases hfound

/-! ## Pairs of names -/

/-- The agents and the actions that have a schema. -/
def pairs (c : Catalog) : List (String × String) :=
  c.agents.flatMap fun e => e.2.keys.map fun action => (e.1, action)

theorem length_pairs (c : Catalog) : c.pairs.length = c.size := by
  unfold pairs size toList Table.values Table.keys
  rw [List.flatMap_map, List.length_flatMap, List.length_flatMap]
  simp

theorem contains_iff {c : Catalog} {agent action : String} : c.contains agent action ↔
    ∃ t, c.agents.get? agent = some t ∧ t.contains action := by
  unfold contains lookup actionsOf
  cases c.agents.get? agent with
  | none => simp [Table.get?]
  | some t => simp [Table.contains]

variable {c : Catalog}

theorem mem_pairs (h : c.InOrder) (agent action : String) :
    (agent, action) ∈ c.pairs ↔ c.contains agent action := by
  rw [contains_iff]
  unfold pairs
  rw [List.mem_flatMap]
  constructor
  · rintro ⟨⟨a, t⟩, hmem, hkeys⟩
    obtain ⟨x, hx, heq⟩ := List.mem_map.mp hkeys
    cases heq
    exact ⟨t, (h.agents.mem_iff a t).mp hmem, (Table.contains_iff_mem_keys t action).mpr hx⟩
  · rintro ⟨t, ht, haction⟩
    exact ⟨(agent, t), (h.agents.mem_iff agent t).mpr ht,
      List.mem_map.mpr ⟨action, (Table.contains_iff_mem_keys t action).mp haction, rfl⟩⟩

theorem nodup_pairs (h : c.InOrder) : c.pairs.Nodup := by
  have hagents : List.Pairwise (fun e e' => e.1 < e'.1) c.agents := List.pairwise_map.mp h.agents
  refine List.nodup_flatMap.mpr ⟨fun ⟨a, t⟩ hmem => ?_, hagents.imp fun {e e'} hlt => ?_⟩
  · have hactions : c.actionsOf a = t := by
      unfold actionsOf
      rw [(h.agents.mem_iff a t).mp hmem, Option.getD_some]
    have hsorted : t.Sorted := hactions ▸ h.actions a
    exact List.pairwise_map.mpr (hsorted.imp fun hlt heq => hlt.ne (Prod.mk.inj heq).2)
  · intro pair hpair hpair'
    obtain ⟨x, -, rfl⟩ := List.mem_map.mp hpair
    obtain ⟨x', -, heq⟩ := List.mem_map.mp hpair'
    exact hlt.ne (Prod.mk.inj heq).1.symm

theorem contains_insert (c : Catalog) (s : ActionSchema) (agent action : String) :
    (c.insert s).contains agent action ↔
      c.contains agent action ∨ agent = s.agent ∧ action = s.action := by
  unfold contains
  rw [lookup_insert, Option.isSome_or, Bool.or_eq_true]
  split <;> simp [*]

/-- **An insertion adds one pair of names, if it is new.** -/
theorem pairs_insert (h : c.InOrder) {s : ActionSchema} (hnew : c.contains s.agent s.action = false) :
    (c.insert s).pairs.Perm ((s.agent, s.action) :: c.pairs) := by
  have hfresh : (s.agent, s.action) ∉ c.pairs := by
    rw [mem_pairs h, hnew]
    exact Bool.false_ne_true
  refine (List.perm_ext_iff_of_nodup (nodup_pairs (h.insert s))
    (List.nodup_cons.mpr ⟨hfresh, nodup_pairs h⟩)).mpr fun ⟨agent, action⟩ => ?_
  rw [mem_pairs (h.insert s), contains_insert, List.mem_cons, mem_pairs h, Prod.mk.injEq, or_comm]

theorem size_insert (h : c.InOrder) (s : ActionSchema) :
    (c.insert s).size = c.size + if c.contains s.agent s.action then 0 else 1 := by
  cases hnew : c.contains s.agent s.action with
  | true =>
    have hsame : c.insert s = c := if_pos hnew
    rw [hsame, if_pos rfl, Nat.add_zero]
  | false =>
    rw [← length_pairs, (pairs_insert h hnew).length_eq, List.length_cons, length_pairs,
      if_neg Bool.false_ne_true]

/-- Every agent of a catalog has an action. -/
def HasActions (c : Catalog) : Prop :=
  ∀ agent, (c.agents.get? agent).isSome → ∃ action, c.contains agent action

theorem HasActions.insert (h : c.HasActions) (s : ActionSchema) : (c.insert s).HasActions := by
  intro agent hagent
  by_cases hsame : agent = s.agent
  · exact ⟨s.action, (contains_insert c s agent s.action).mpr (.inr ⟨hsame, rfl⟩)⟩
  · have hold : (c.agents.get? agent).isSome := by
      unfold Catalog.insert at hagent
      split at hagent
      · exact hagent
      · rwa [Table.get?_insert, if_neg hsame] at hagent
    obtain ⟨action, haction⟩ := h agent hold
    exact ⟨action, (contains_insert c s agent action).mpr (.inl haction)⟩

theorem mem_agentNames (h : c.HasActions) (agent : String) :
    agent ∈ c.agentNames ↔ ∃ action, c.contains agent action := by
  unfold agentNames
  rw [← Table.contains_iff_mem_keys]
  refine ⟨h agent, ?_⟩
  rintro ⟨action, haction⟩
  obtain ⟨t, ht, -⟩ := contains_iff.mp haction
  exact Option.isSome_iff_exists.mpr ⟨t, ht⟩

end Catalog

namespace Schema

/-- The names that a path gives are allowed. -/
theorem check_of_namesOfPath {p : Path} {agent action : String}
    (h : namesOfPath p = .ok (agent, action)) :
    Naming.check agent = .ok () ∧ Naming.check action = .ok () := by
  unfold namesOfPath at h
  split at h
  · cases h
  · split at h
    · cases h
    · split at h
      · cases h
      · split at h
        · cases h
        case h_2 hagent _ haction =>
          cases h
          exact ⟨hagent, haction⟩

theorem check_of_load {files : Files} {p : Path} {s : ActionSchema} (h : load files p = .ok s) :
    Naming.check s.agent = .ok () ∧ Naming.check s.action = .ok () := by
  unfold load at h
  split at h
  · cases h
  case h_2 agent action hnames =>
    split at h
    · cases h
    · split at h
      · cases h
      · cases h
        exact check_of_namesOfPath hnames

theorem value_add (c : Catalog) (s : ActionSchema) : (add c s).value = c.insert s := by
  unfold add
  rw [Logged.value_bind]
  dsimp only
  split <;> rfl

theorem addItem_of_isCandidate {files : Files} (directory : Path) (c : Catalog) {e : Walk.Entry}
    (h : isCandidate e) : addItem files directory c (.entry e) = addFile files c e.path :=
  if_pos h

theorem addItem_of_not_isCandidate {files : Files} (directory : Path) (c : Catalog) {e : Walk.Entry}
    (h : ¬ isCandidate e) : addItem files directory c (.entry e) = pure c :=
  if_neg h

/-- Of the files, what is read at its path is all that matters to an entry. -/
theorem load_congr {files files' : Files} {p : Path} (h : files'.read p = files.read p) :
    load files' p = load files p := by
  unfold load Files.readText
  rw [h]

theorem addItem_congr {files files' : Files} {e : Walk.Entry}
    (h : files'.read e.path = files.read e.path) (directory : Path) (c : Catalog) :
    addItem files' directory c (.entry e) = addItem files directory c (.entry e) := by
  unfold addItem addFile
  dsimp only
  rw [load_congr h]

/-- **What loaded schemas keep holds of every catalog that is found.** -/
theorem discover_keeps {P : Catalog → Prop} (files : Files) (directories : List Path)
    (hempty : P .empty)
    (hinsert : ∀ c p s, load files p = .ok s → P c → P (c.insert s)) :
    P (discover files directories).value := by
  have hfile : ∀ c p, P c → P (addFile files c p).value := by
    intro c p hc
    unfold addFile
    split
    case h_1 s hs =>
      rw [value_add]
      exact hinsert c p s hs hc
    case h_2 => exact hc
  have hitem : ∀ directory c i, P c → P (addItem files directory c i).value := by
    intro directory c i hc
    cases i with
    | entry e =>
      by_cases h : isCandidate e
      · rw [addItem_of_isCandidate directory c h]
        exact hfile c e.path hc
      · rw [addItem_of_not_isCandidate directory c h]
        exact hc
    | unlisted p e => exact hc
  refine Logged.foldlM_keeps (fun c directory hc => ?_) directories hempty
  unfold addDirectory
  split
  · exact Logged.foldlM_keeps (hitem directory) _ hc
  · exact hc

/-- **Whatever discovery finds, the catalog is in order.** -/
theorem inOrder_discover (files : Files) (directories : List Path) :
    (discover files directories).value.InOrder :=
  discover_keeps files directories Catalog.inOrder_empty fun _ _ s _ hc => hc.insert s

/-- **Whatever discovery finds, schemas stand under their own names.** -/
theorem isNamed_discover (files : Files) (directories : List Path) :
    (discover files directories).value.IsNamed := by
  refine discover_keeps files directories Catalog.isNamed_empty fun c p s hload hc => ?_
  obtain ⟨hagent, haction⟩ := check_of_load hload
  exact hc.insert hagent haction

end Schema

end ScriptedActions
