import Mathlib.Data.Finset.Card
import ScriptedActions.Proofs.Insertions
import ScriptedActions.Proofs.Registration

/-!
# Offering the agents of a provider

A provider goes through the agents of its catalog and offers each of them to a manager. What the
manager says to one offer is counted, and changes nothing about the next one: `registerAll_recorded`
compares the run with a run in which the manager keeps book of what it was offered.

A manager that takes every name it does not have (`ScriptedManager.offer`) makes the union of two sets
of names that way. The union is told name by name, from `Provider.get?_registerAll`; the number of
agents it took needs that no name is offered twice, which the order of the names gives.
-/

set_option autoImplicit false

namespace ScriptedActions

namespace Provider

/-- An offer that was made to a manager. -/
structure Offered where
  agent : Agent Dispatcher
  taken : Bool

/-- A manager that keeps book of its offers. -/
def Offer.recorded {σ : Type} (offer : Offer σ) : Offer (σ × List Offered) := fun a s => do
  let (answer, t) ← offer a s.1
  pure (answer, t, s.2 ++ [⟨a, answer.isOk⟩])

variable {p : Provider}

/-! ## Any manager -/

section Recorded

variable {σ : Type} (offer : Offer σ)

/-- An offer counts if the manager took it. -/
theorem offerAgent_value (h : p.catalog.InOrder) (s : σ) (name : String) :
    (p.offerAgent offer s name).value =
      ((offer (p.agentOf name) s).value.1.isOk, (offer (p.agentOf name) s).value.2) := by
  unfold offerAgent
  rw [agent_eq h]
  simp only [Logged.value_bind]
  rcases (offer (p.agentOf name) s).value with ⟨e | u, t⟩ <;> rfl

/-- What is known after an offer: how many were taken, and what became of the manager. -/
def afterOffer (p : Provider) (offer : Offer σ) (s : Nat × σ) (name : String) : Nat × σ :=
  let (taken, t) := (p.offerAgent offer s.2 name).value
  (if taken then s.1 + 1 else s.1, t)

theorem registerAll_value (p : Provider) (s : σ) :
    (p.registerAll offer s).value = p.agentNames.foldl (p.afterOffer offer) (0, s) := by
  unfold registerAll
  rw [Logged.value_bind, Logged.value_foldlM]
  rfl

/-- One offer: the book has one entry more, and the rest is as it would be without it. -/
theorem afterOffer_recorded (h : p.catalog.InOrder) (n : Nat) (s : σ) (made : List Offered)
    (name : String) :
    ∃ o : Offered, o.agent = p.agentOf name ∧
      (p.afterOffer offer (n, s) name).1 = n + (if o.taken then 1 else 0) ∧
      p.afterOffer offer.recorded (n, s, made) name =
        ((p.afterOffer offer (n, s) name).1, (p.afterOffer offer (n, s) name).2, made ++ [o]) := by
  refine ⟨⟨p.agentOf name, (offer (p.agentOf name) s).value.1.isOk⟩, rfl, ?_⟩
  unfold afterOffer
  simp only [offerAgent_value _ h, Offer.recorded, Logged.value_bind, Logged.value_pure]
  cases (offer (p.agentOf name) s).value.1.isOk <;> simp

/-- Offers made one after the other: every name is offered, whatever was said to those before. -/
theorem foldl_recorded (h : p.catalog.InOrder) (names : List String) (n : Nat) (s : σ)
    (made : List Offered) :
    ∃ more : List Offered, more.map (·.agent) = names.map p.agentOf ∧
      (names.foldl (p.afterOffer offer) (n, s)).1 = n + more.countP (·.taken) ∧
      names.foldl (p.afterOffer offer.recorded) (n, s, made) =
        ((names.foldl (p.afterOffer offer) (n, s)).1,
          (names.foldl (p.afterOffer offer) (n, s)).2, made ++ more) := by
  induction names generalizing n s made with
  | nil => exact ⟨[], by simp⟩
  | cons name rest ih =>
    obtain ⟨o, ho, htaken, hrecorded⟩ := afterOffer_recorded offer h n s made name
    rw [List.foldl_cons, List.foldl_cons, hrecorded]
    obtain ⟨more, hagents, hcount, hbook⟩ := ih (p.afterOffer offer (n, s) name).1
      (p.afterOffer offer (n, s) name).2 (made ++ [o])
    refine ⟨o :: more, ?_, ?_, ?_⟩
    · rw [List.map_cons, List.map_cons, ho, hagents]
    · rw [hcount, htaken, List.countP_cons]
      omega
    · rw [hbook, List.append_assoc, List.singleton_append]

/-- **Each agent of the catalog is offered once, in the order of the names**, and what is counted
are the offers that were taken. -/
theorem registerAll_recorded (h : p.catalog.InOrder) (s : σ) :
    ∃ made : List Offered, made.map (·.agent) = p.agentNames.map p.agentOf ∧
      (p.registerAll offer s).value.1 = made.countP (·.taken) ∧
      (p.registerAll offer.recorded (s, [])).value =
        ((p.registerAll offer s).value.1, (p.registerAll offer s).value.2, made) := by
  simp only [registerAll_value]
  obtain ⟨made, hagents, hcount, hbook⟩ := foldl_recorded offer h p.agentNames 0 s []
  rw [Nat.zero_add] at hcount
  exact ⟨made, hagents, hcount, hbook⟩

end Recorded

/-! ## A manager that takes every new name -/

section Taking

variable {η : Type} (handler : Agent Dispatcher → η) (connector : String)

/-- Offers to a manager of handlers of any kind, which refuses the names that it has. -/
def taking : Offer (Manager η) := fun a m => do
  match ← m.register a.name (handler a) connector with
  | .ok m => pure (.ok (), m)
  | .error e => pure (.error e, m)

/-- A manager of scripted agents is one. -/
theorem offer_eq_taking : ScriptedManager.offer connector = taking id connector := by
  funext a m
  refine bind_congr fun answer => ?_
  cases answer <;> rfl

theorem afterOffer_taking (h : p.catalog.InOrder) (n : Nat) (m : Manager η) (name : String) :
    p.afterOffer (taking handler connector) (n, m) name =
      if m.isRegistered name then (n, m)
      else (n + 1, ⟨m.agents.insert name ⟨handler (p.agentOf name), connector⟩⟩) := by
  have hname : (p.agentOf name).name = name := rfl
  unfold afterOffer
  simp only [offerAgent_value _ h, taking, Logged.value_bind, Manager.register, hname]
  cases m.isRegistered name <;> rfl

/-- Names that a manager has already are not taken again. -/
theorem foldl_registered (h : p.catalog.InOrder) {names : List String} {m : Manager η}
    (hnames : ∀ name ∈ names, m.isRegistered name) (n : Nat) :
    names.foldl (p.afterOffer (taking handler connector)) (n, m) = (n, m) := by
  induction names with
  | nil => rfl
  | cons name rest ih =>
    obtain ⟨hname, hrest⟩ := List.forall_mem_cons.mp hnames
    rw [List.foldl_cons, afterOffer_taking handler connector h, if_pos hname, ih hrest]

/-- Of different names those are taken that the manager did not have before the first offer. -/
theorem count_taking (h : p.catalog.InOrder) {names : List String} (hnodup : names.Nodup)
    (n : Nat) (m : Manager η) :
    (names.foldl (p.afterOffer (taking handler connector)) (n, m)).1 =
      n + names.countP fun name => !m.isRegistered name := by
  induction names generalizing n m with
  | nil => rfl
  | cons name rest ih =>
    obtain ⟨hname, hrest⟩ := List.nodup_cons.mp hnodup
    rw [List.foldl_cons, afterOffer_taking handler connector h, List.countP_cons]
    split
    case isTrue hold => simp [ih hrest, hold]
    case isFalse hnew =>
      -- the names behind it are other ones, so they are as new as they were
      have hothers : rest.countP (fun k => !Manager.isRegistered
          ⟨m.agents.insert name ⟨handler (p.agentOf name), connector⟩⟩ k) =
          rest.countP fun k => !m.isRegistered k := by
        refine List.countP_congr fun k hk => ?_
        have hne : k ≠ name := fun heq => hname (heq ▸ hk)
        simp [Manager.isRegistered, Table.contains, Table.get?_insert, hne]
      rw [ih hrest, hothers]
      simp [hnew]
      omega

/-- What is registered stays, and of the names that are offered each one is registered. -/
theorem get?_foldl_taking (h : p.catalog.InOrder) (names : List String) (n : Nat) (m : Manager η)
    (name : String) :
    (names.foldl (p.afterOffer (taking handler connector)) (n, m)).2.agents.get? name =
      (m.agents.get? name).or
        (if name ∈ names then some ⟨handler (p.agentOf name), connector⟩ else none) := by
  induction names generalizing n m with
  | nil => exact Option.or_none.symm
  | cons offered rest ih =>
    rw [List.foldl_cons, afterOffer_taking handler connector h]
    split
    case isTrue hold =>
      rw [ih]
      by_cases hname : name = offered
      · subst hname
        obtain ⟨reg, hreg⟩ := Option.isSome_iff_exists.mp hold
        simp [hreg]
      · simp [hname]
    case isFalse hnew =>
      have hnone : m.agents.get? offered = none := by
        simpa [Manager.isRegistered, Table.contains] using hnew
      rw [ih, Table.get?_insert]
      by_cases hname : name = offered
      · subst hname
        simp [hnone]
      · simp [hname]

theorem get?_taking (h : p.catalog.InOrder) (m : Manager η) (name : String) :
    (p.registerAll (taking handler connector) m).value.2.agents.get? name =
      (m.agents.get? name).or (if name ∈ p.agentNames
        then some ⟨handler (p.agentOf name), connector⟩ else none) := by
  rw [registerAll_value]
  exact get?_foldl_taking handler connector h p.agentNames 0 m name

/-- The names of a manager afterwards are those that it had and those of the catalog. -/
theorem agentNames_taking (h : p.catalog.InOrder) (m : Manager η) :
    (p.registerAll (taking handler connector) m).value.2.agentNames.toFinset =
      m.agentNames.toFinset ∪ p.agentNames.toFinset := by
  ext name
  simp only [Finset.mem_union, List.mem_toFinset, Manager.agentNames, ← Table.contains_iff_mem_keys,
    Table.contains, get?_taking handler connector h, Option.isSome_or, Bool.or_eq_true]
  split <;> simp [*]

/-- The number of agents that are taken is that of the new names. -/
theorem registered_taking (h : p.catalog.InOrder) (m : Manager η) :
    (p.registerAll (taking handler connector) m).value.1 =
      (p.agentNames.toFinset \ m.agentNames.toFinset).card := by
  have hsorted : p.agentNames.Pairwise (· < ·) := h.agents
  have hnodup : p.agentNames.Nodup := hsorted.imp ne_of_lt
  rw [registerAll_value, count_taking handler connector h hnodup, Nat.zero_add,
    List.countP_eq_length_filter, ← List.toFinset_card_of_nodup (hnodup.filter _)]
  congr 1
  ext name
  simp [Manager.isRegistered, Manager.agentNames, ← Table.contains_iff_mem_keys]

/-- **Registering again takes nothing.** -/
theorem registerAll_again (h : p.catalog.InOrder) (again : String) (m : Manager η) :
    let after := (p.registerAll (taking handler connector) m).value.2
    (p.registerAll (taking handler again) after).value = (0, after) := by
  intro after
  rw [registerAll_value]
  refine foldl_registered handler again h ?_ 0
  intro name hname
  simp [Manager.isRegistered, Table.contains, after, get?_taking handler connector h, hname]

end Taking

/-! ## The main statement -/

/-- **What registering the agents of a catalog does**, to any manager and to one that takes every name
it does not have. -/
theorem registrations (k : Config) (schemas : List ActionSchema) :
    let p : Provider := ⟨k, (Catalog.empty.addAll schemas).2⟩
    (∀ (σ : Type) (manage : String → Offer σ) (connector : String) (s : σ), ∃ made : List Offered,
      (p.registerAll (manage connector).recorded (s, [])).value =
          ((p.registerAll (manage connector) s).value.1,
            (p.registerAll (manage connector) s).value.2, made) ∧
        made.map (·.agent.name) = p.catalog.agentNames ∧
        (made.map (·.agent.name)).Pairwise (· < ·) ∧
        (∀ o ∈ made, o.agent.actionNames = (p.catalog.actionsOf o.agent.name).keys ∧
          ∀ action, o.agent.actions.get? action =
            (p.catalog.lookup o.agent.name action).map fun _ => p.dispatcher) ∧
        (p.registerAll (manage connector) s).value.1 = made.countP (·.taken)) ∧
    (∀ connector, ScriptedManager.offer connector = taking id connector) ∧
    ∀ (η : Type) (handler : Agent Dispatcher → η) (m : Manager η) (connector : String),
      let registered := (p.registerAll (taking handler connector) m).value.1
      let after := (p.registerAll (taking handler connector) m).value.2
      after.agentNames.toFinset = m.agentNames.toFinset ∪ p.catalog.agentNames.toFinset ∧
        registered = (p.catalog.agentNames.toFinset \ m.agentNames.toFinset).card ∧
        (∀ name, after.agents.get? name = (m.agents.get? name).or (if name ∈ p.catalog.agentNames
          then some ⟨handler (p.agentOf name), connector⟩ else none)) ∧
        ∀ again, (p.registerAll (taking handler again) after).value = (0, after) := by
  intro p
  have h : p.catalog.InOrder := by
    show (Catalog.empty.addAll schemas).2.InOrder
    rw [(Catalog.addAll_eq Catalog.inOrder_empty schemas).1]
    exact Catalog.inOrder_foldl_insert Catalog.inOrder_empty schemas
  refine ⟨?_, offer_eq_taking, ?_⟩
  · intro σ manage connector s
    obtain ⟨made, hagents, hcount, hbook⟩ := registerAll_recorded (manage connector) h s
    have hnames : made.map (·.agent.name) = p.agentNames := by
      simpa [Function.comp_def, agentOf] using congrArg (List.map (·.name)) hagents
    refine ⟨made, hbook, hnames, hnames ▸ h.agents, ?_, hcount⟩
    intro o ho
    obtain ⟨name, -, hname⟩ := List.mem_map.mp (hagents ▸ List.mem_map_of_mem ho)
    rw [← hname]
    refine ⟨?_, get?_agentOf p name⟩
    exact Table.keys_mapValues (p.catalog.actionsOf name) fun _ => p.dispatcher
  · intro η handler m connector registered after
    exact ⟨agentNames_taking handler connector h m, registered_taking handler connector h m,
      get?_taking handler connector h m, fun again => registerAll_again handler connector h again m⟩

end Provider

end ScriptedActions
