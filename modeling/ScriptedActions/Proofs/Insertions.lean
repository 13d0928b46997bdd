import Mathlib.Data.List.Dedup
import ScriptedActions.Proofs.ByteOrder
import ScriptedActions.Proofs.Catalog

/-!
# Catalogs that insertions make

A catalog is made by adding schemas one after the other, in whatever order and with whatever
repetitions. `Catalog.add` enters the agent of a schema before it looks whether the action has one,
so a refused schema might leave an agent without actions behind, or move a schema. It does not:
`Catalog.add_eq` says that an addition is an insertion and the answer to it, as long as the catalog
is in order.

The main statement, `Catalog.insertions`, tells every observer of such a catalog from the list of the
schemas that were added. Two lists meet in it: the schemas that were added, of which the first one of
a pair of names counts, and the schemas that the catalog lists, which stand in the order of their
names.
-/

set_option autoImplicit false

namespace ScriptedActions

/-- The agent and the action that a schema is for. -/
def ActionSchema.names (s : ActionSchema) : String × String := (s.agent, s.action)

namespace Catalog

/-- A schema stands in front of another one: the bytes of its agent do, or those of its action if the
agent is the same. -/
def Precedes (s t : ActionSchema) : Prop :=
  bytesOf s.agent < bytesOf t.agent ∨
    s.agent = t.agent ∧ bytesOf s.action < bytesOf t.action

/-- What a catalog is if some schemas were added to it, the first one of a pair of names counting. -/
structure IsMadeOf (c : Catalog) (schemas : List ActionSchema) : Prop where
  /-- The first schema of an action is found, and none where there is none. -/
  lookup : ∀ agent action,
    c.lookup agent action = schemas.find? fun s => agent = s.agent ∧ action = s.action
  /-- Every schema is stored under its own names, and every agent has one. -/
  stored : ∀ e ∈ c.agents, e.2 ≠ [] ∧ ∀ f ∈ e.2, f.2.agent = e.1 ∧ f.2.action = f.1
  size : c.size = (schemas.map ActionSchema.names).dedup.length
  isEmpty : c.isEmpty ↔ c.size = 0
  agentNames : c.agentNames.Pairwise (· < ·)
  mem_agentNames : ∀ agent, agent ∈ c.agentNames ↔ ∃ s ∈ schemas, s.agent = agent
  /-- The schemas are listed in the strict order of their names, so none is listed twice. -/
  toList : c.toList.Pairwise Precedes
  mem_toList : ∀ s, s ∈ c.toList ↔ c.lookup s.agent s.action = some s
  /-- What is listed for an agent are the schemas of its actions. -/
  ofAgent : ∀ agent, (c.toList.filter fun s => s.agent = agent) = (c.actionsOf agent).values

/-! ## Additions -/

variable {c : Catalog}

/-- **An addition is an insertion**, and its answer tells whether the action had no schema. -/
theorem add_eq (h : c.InOrder) (s : ActionSchema) :
    c.add s = (!c.contains s.agent s.action, c.insert s) := by
  have hcontains : c.contains s.agent s.action = (c.actionsOf s.agent).contains s.action := rfl
  unfold add Catalog.insert
  dsimp only
  rw [hcontains]
  cases hknown : (c.actionsOf s.agent).contains s.action with
  | true =>
    -- the agent has an action, so it is entered as it was
    obtain ⟨t, ht, -⟩ := contains_iff.mp (hcontains.trans hknown)
    have hactions : c.actionsOf s.agent = t := by simp [actionsOf, ht]
    simp [hactions, h.agents.insert_self ht]
  | false => simp [Table.insert_insert]

theorem addAll_append (c : Catalog) (before after : List ActionSchema) :
    c.addAll (before ++ after) =
      ((c.addAll before).1 ++ ((c.addAll before).2.addAll after).1,
        ((c.addAll before).2.addAll after).2) := by
  induction before generalizing c with
  | nil => simp [addAll]
  | cons s rest ih => simp [addAll, ih]

/-- What is kept by insertions holds after additions, if the catalog is in order. -/
theorem addAll_eq (h : c.InOrder) (schemas : List ActionSchema) :
    (c.addAll schemas).2 = schemas.foldl insert c ∧ (c.addAll schemas).1.length = schemas.length := by
  induction schemas generalizing c with
  | nil => exact ⟨rfl, rfl⟩
  | cons s rest ih =>
    obtain ⟨hcatalog, hlength⟩ := ih (h.insert s)
    simp [addAll, add_eq h, hcatalog, hlength]

theorem inOrder_foldl_insert (h : c.InOrder) (schemas : List ActionSchema) :
    (schemas.foldl insert c).InOrder := by
  induction schemas generalizing c with
  | nil => exact h
  | cons s rest ih => exact ih (h.insert s)

theorem hasActions_foldl_insert (h : c.HasActions) (schemas : List ActionSchema) :
    (schemas.foldl insert c).HasActions := by
  induction schemas generalizing c with
  | nil => exact h
  | cons s rest ih => exact ih (h.insert s)

theorem contains_made (schemas : List ActionSchema) (agent action : String) :
    (schemas.foldl insert empty).contains agent action ↔
      ∃ s ∈ schemas, s.names = (agent, action) := by
  unfold contains
  rw [lookup_foldl_insert, lookup_empty, Option.none_or, List.find?_isSome]
  simp only [decide_eq_true_eq, ActionSchema.names, Prod.mk.injEq, @eq_comm _ agent,
    @eq_comm _ action]

/-- **The answer to an addition** tells whether it is the first one for its names. -/
theorem answer_addAll (before after : List ActionSchema) (s : ActionSchema) :
    (empty.addAll (before ++ s :: after)).1[before.length]? =
      some (decide (∀ t ∈ before, t.names ≠ s.names)) := by
  obtain ⟨hcatalog, hlength⟩ := addAll_eq inOrder_empty before
  have horder : (before.foldl insert empty).InOrder := inOrder_foldl_insert inOrder_empty before
  rw [addAll_append, hcatalog]
  simp only [addAll, add_eq horder]
  rw [List.getElem?_append_right (Nat.le_of_eq hlength), hlength, Nat.sub_self,
    List.getElem?_cons_zero, Option.some.injEq, Bool.eq_iff_iff, Bool.not_eq_true',
    ← Bool.not_eq_true, contains_made, decide_eq_true_eq]
  constructor
  · intro hnew t ht heq
    exact hnew ⟨t, ht, heq⟩
  · rintro hnew ⟨t, ht, heq⟩
    exact hnew t ht heq

/-! ## Listings -/

section Listings

variable (h : c.InOrder)

include h

theorem actionsOf_of_mem {agent : String} {t : Table ActionSchema} (ht : (agent, t) ∈ c.agents) :
    c.actionsOf agent = t := by
  unfold actionsOf
  rw [(h.agents.mem_iff agent t).mp ht, Option.getD_some]

/-- A schema is stored exactly where it is found. -/
theorem lookup_of_mem {agent action : String} {t : Table ActionSchema} {s : ActionSchema}
    (ht : (agent, t) ∈ c.agents) (hs : (action, s) ∈ t) : c.lookup agent action = some s := by
  have hactions := actionsOf_of_mem h ht
  unfold lookup
  rw [hactions]
  exact ((hactions ▸ h.actions agent).mem_iff action s).mp hs

theorem mem_of_lookup {agent action : String} {s : ActionSchema}
    (hs : c.lookup agent action = some s) : (agent, c.actionsOf agent) ∈ c.agents ∧
      (action, s) ∈ c.actionsOf agent := by
  obtain ⟨t, ht, -⟩ := contains_iff.mp (show c.contains agent action by simp [contains, hs])
  have hmem := (h.agents.mem_iff agent t).mpr ht
  rw [actionsOf_of_mem h hmem]
  refine ⟨hmem, ?_⟩
  unfold lookup at hs
  rw [actionsOf_of_mem h hmem] at hs
  exact ((actionsOf_of_mem h hmem ▸ h.actions agent).mem_iff action s).mpr hs

end Listings

/-- Every schema is found under its own names. -/
def OwnNames (c : Catalog) : Prop :=
  ∀ agent action s, c.lookup agent action = some s → s.agent = agent ∧ s.action = action

theorem ownNames_made (schemas : List ActionSchema) : (schemas.foldl insert empty).OwnNames := by
  intro agent action s hs
  rw [lookup_foldl_insert, lookup_empty, Option.none_or] at hs
  have hnames : agent = s.agent ∧ action = s.action := by simpa using List.find?_some hs
  exact ⟨hnames.1.symm, hnames.2.symm⟩

section Listings

variable (h : c.InOrder) (hnames : c.OwnNames)

include h hnames

theorem stored_under_names {agent : String} {t : Table ActionSchema} (ht : (agent, t) ∈ c.agents)
    {f : String × ActionSchema} (hf : f ∈ t) : f.2.agent = agent ∧ f.2.action = f.1 :=
  hnames agent f.1 f.2 (lookup_of_mem h ht hf)

theorem mem_toList_iff (s : ActionSchema) :
    s ∈ c.toList ↔ c.lookup s.agent s.action = some s := by
  unfold toList Table.values
  rw [List.flatMap_map, List.mem_flatMap]
  constructor
  · rintro ⟨⟨agent, t⟩, ht, hs⟩
    obtain ⟨f, hf, rfl⟩ := List.mem_map.mp hs
    obtain ⟨hagent, haction⟩ := stored_under_names h hnames ht hf
    rw [hagent, haction]
    exact lookup_of_mem h ht hf
  · intro hs
    obtain ⟨ht, hf⟩ := mem_of_lookup h hs
    exact ⟨_, ht, List.mem_map.mpr ⟨_, hf, rfl⟩⟩

/-- **The schemas of a catalog are listed in the order of their names.** -/
theorem pairwise_toList : c.toList.Pairwise Precedes := by
  unfold toList Table.values
  rw [List.flatMap_map, List.pairwise_flatMap]
  constructor
  · rintro ⟨agent, t⟩ ht
    have hsorted : t.Sorted := actionsOf_of_mem h ht ▸ h.actions agent
    rw [List.pairwise_map]
    refine (List.pairwise_map.mp hsorted).imp_of_mem fun {f g} hf hg hlt => .inr ?_
    have hf' := stored_under_names h hnames ht hf
    have hg' := stored_under_names h hnames ht hg
    rw [hf'.1, hf'.2, hg'.1, hg'.2]
    exact ⟨rfl, (bytesOf_lt_iff _ _).mpr hlt⟩
  · refine (List.pairwise_map.mp h.agents).imp_of_mem fun {e e'} he he' hlt => ?_
    intro s hs s' hs'
    obtain ⟨f, hf, rfl⟩ := List.mem_map.mp hs
    obtain ⟨f', hf', rfl⟩ := List.mem_map.mp hs'
    rw [Precedes, (stored_under_names h hnames he hf).1, (stored_under_names h hnames he' hf').1]
    exact .inl ((bytesOf_lt_iff _ _).mpr hlt)

theorem filter_toList (agent : String) :
    (c.toList.filter fun s => s.agent = agent) = (c.actionsOf agent).values := by
  have hpart : ∀ e ∈ c.agents, (Table.values e.2).filter (fun s => s.agent = agent) =
      if e.1 = agent then Table.values e.2 else [] := by
    intro e he
    have howner : ∀ s ∈ Table.values e.2, s.agent = e.1 := by
      intro s hs
      obtain ⟨f, hf, rfl⟩ := List.mem_map.mp hs
      exact (stored_under_names h hnames he hf).1
    split
    case isTrue heq => exact List.filter_eq_self.mpr fun s hs => by simp [howner s hs, heq]
    case isFalse hne => exact List.filter_eq_nil_iff.mpr fun s hs => by simp [howner s hs, hne]
  unfold toList actionsOf
  rw [show c.agents.values = c.agents.map Prod.snd from rfl, List.flatMap_map, List.filter_flatMap,
    List.flatMap_congr hpart]
  exact Table.flatMap_ite_eq h.agents agent (f := Table.values) rfl

end Listings

/-- A catalog without schemas has no agents either, since every agent has an action. -/
theorem isEmpty_iff_size (h : c.InOrder) (hactions : c.HasActions) :
    c.isEmpty ↔ c.size = 0 := by
  rw [← length_pairs, List.length_eq_zero_iff]
  constructor
  · intro hempty
    simp [pairs, List.isEmpty_iff.mp hempty]
  · intro hpairs
    refine List.isEmpty_iff.mpr (List.eq_nil_iff_forall_not_mem.mpr ?_)
    rintro ⟨agent, t⟩ hmem
    have hentry : (c.agents.get? agent).isSome := by simp [(h.agents.mem_iff agent t).mp hmem]
    obtain ⟨action, haction⟩ := hactions agent hentry
    have hpair : (agent, action) ∈ c.pairs := (mem_pairs h agent action).mpr haction
    simp [hpairs] at hpair

/-! ## The main statement -/

/-- **What additions make of a catalog**, and how they are answered. -/
theorem insertions (schemas : List ActionSchema) :
    (empty.addAll schemas).2.IsMadeOf schemas ∧
      (empty.addAll schemas).1.length = schemas.length ∧
      ∀ before s after, schemas = before ++ s :: after →
        ((empty.addAll schemas).1[before.length]? = some true ↔
          ∀ t ∈ before, t.names ≠ s.names) := by
  obtain ⟨hcatalog, hlength⟩ := addAll_eq inOrder_empty schemas
  have horder : (schemas.foldl insert empty).InOrder := inOrder_foldl_insert inOrder_empty schemas
  have hactions : (schemas.foldl insert empty).HasActions :=
    hasActions_foldl_insert (by intro agent hagent; cases hagent) schemas
  have hnames := ownNames_made schemas
  refine ⟨?_, hlength, ?_⟩
  · rw [hcatalog]
    constructor
    · intro agent action
      rw [lookup_foldl_insert, lookup_empty, Option.none_or]
    · intro e he
      refine ⟨?_, fun f hf => stored_under_names horder hnames he hf⟩
      intro hnil
      have hentry := (horder.agents.mem_iff e.1 e.2).mp he
      obtain ⟨action, haction⟩ := hactions e.1 (by simp [hentry])
      obtain ⟨t, ht, hcontains⟩ := contains_iff.mp haction
      rw [hentry] at ht
      cases ht
      rw [hnil] at hcontains
      cases hcontains
    · rw [← length_pairs]
      refine ((List.perm_ext_iff_of_nodup (nodup_pairs horder) (List.nodup_dedup _)).mpr ?_).length_eq
      rintro ⟨agent, action⟩
      rw [mem_pairs horder, contains_made, List.mem_dedup, List.mem_map]
    · exact isEmpty_iff_size horder hactions
    · exact horder.agents
    · intro agent
      rw [mem_agentNames hactions]
      simp only [contains_made, ActionSchema.names, Prod.mk.injEq]
      constructor
      · rintro ⟨action, s, hs, rfl, -⟩
        exact ⟨s, hs, rfl⟩
      · rintro ⟨s, hs, rfl⟩
        exact ⟨s.action, s, hs, rfl, rfl⟩
    · exact pairwise_toList horder hnames
    · exact mem_toList_iff horder hnames
    · exact filter_toList horder hnames
  · rintro before s after rfl
    rw [answer_addAll]
    simp

end Catalog

end ScriptedActions
