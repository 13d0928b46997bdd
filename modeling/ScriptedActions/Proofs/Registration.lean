import ScriptedActions.Proofs.Catalog
import ScriptedActions.Provider.Session

/-!
# Registering the agents of a provider

A provider offers an agent for each name in its catalog, with one action for each schema of that
name. All of them have the same dispatcher, which holds the catalog of that moment. A manager takes
an agent unless it refuses the name or has an agent of that name.
-/

set_option autoImplicit false

namespace ScriptedActions

/-- Actions that are registered in their order all get the handler. -/
theorem Agent.foldlM_register {η : Type} (h : η) (names : List String) {a : Agent η}
    (hsorted : names.Pairwise (· < ·)) (hbelow : ∀ n ∈ a.actions.keys, ∀ k ∈ names, n < k) :
    names.foldlM (fun a action => a.register action h) a =
      .ok { a with actions := a.actions ++ names.map (·, h) } := by
  induction names generalizing a with
  | nil => simp [pure, Except.pure]
  | cons k rest ih =>
    obtain ⟨hk, hrest⟩ := List.pairwise_cons.mp hsorted
    have hnew : a.hasAction k = false := by
      refine eq_false_of_ne_true fun hhas => ?_
      exact lt_irrefl k (hbelow k ((Table.contains_iff_mem_keys _ k).mp hhas) k (.head rest))
    have hregister : a.register k h = .ok { a with actions := a.actions ++ [(k, h)] } := by
      unfold Agent.register
      rw [hnew, Table.insert_eq_append _ _ fun n hn => hbelow n hn k (.head rest)]
      rfl
    have hbelow' : ∀ n ∈ Table.keys (a.actions ++ [(k, h)]), ∀ j ∈ rest, n < j := by
      intro n hn j hj
      rw [Table.keys, List.map_append, List.mem_append] at hn
      rcases hn with hn | hn
      · exact hbelow n hn j (.tail _ hj)
      · rw [List.mem_singleton.mp hn]
        exact hk j hj
    rw [List.foldlM_cons, hregister]
    show rest.foldlM _ _ = _
    rw [ih hrest hbelow']
    simp only [List.append_assoc, List.singleton_append, List.map_cons]

namespace Provider

/-- The agent that a provider offers under a name. -/
def agentOf (p : Provider) (name : String) : Agent Dispatcher :=
  ⟨name, (p.catalog.actionsOf name).mapValues fun _ => p.dispatcher⟩

/-- **The agents of a provider can be built**, and an agent has the actions of the catalog. -/
theorem agent_eq {p : Provider} (h : p.catalog.InOrder) (name : String) :
    p.agent name = .ok (p.agentOf name) := by
  unfold agent
  rw [Agent.foldlM_register p.dispatcher _ (h.actions name) (fun _ hn => absurd hn List.not_mem_nil)]
  simp only [agentOf, Agent.new, Table.mapValues, Table.keys, List.nil_append, List.map_map]
  rfl

/-- What a provider registers under a name that nothing is registered under. -/
def granted? (p : Provider) (connector : String) (refuses : String → Bool) (name : String) :
    Option (Registration (Agent Dispatcher)) :=
  if name ∈ p.agentNames ∧ refuses name = false then some ⟨p.agentOf name, connector⟩ else none

/-- What a manager is after an offer is up to the manager. -/
theorem value_offerAgent {σ : Type} {p : Provider} (h : p.catalog.InOrder) (offer : Offer σ) (s : σ)
    (name : String) :
    (p.offerAgent offer s name).value.2 = (offer (p.agentOf name) s).value.2 := by
  unfold offerAgent
  rw [agent_eq h]
  simp only [Logged.value_bind]
  rcases (offer (p.agentOf name) s).value with ⟨e | u, s'⟩ <;> rfl

variable {p : Provider} (connector : String) (refuses : String → Bool)

/-- The manager after an offer. -/
theorem manager_offerAgent (h : p.catalog.InOrder) (m : ScriptedManager) (name : String) :
    (p.offerAgent (Session.offer connector refuses) m name).value.2 =
      if refuses name || m.isRegistered name then m
      else ⟨m.agents.insert name ⟨p.agentOf name, connector⟩⟩ := by
  have hname : (p.agentOf name).name = name := rfl
  rw [value_offerAgent h]
  simp only [Session.offer, hname]
  cases refuses name with
  | true => rfl
  | false =>
    simp only [Bool.false_eq_true, if_false, Bool.false_or, ScriptedManager.offer,
      Logged.value_bind, Manager.register, hname]
    cases m.isRegistered name <;> rfl

/-- An offer changes what is registered under the name of the agent only, and only if nothing
is. -/
theorem get?_offerAgent (h : p.catalog.InOrder) (m : ScriptedManager) (offered name : String) :
    (p.offerAgent (Session.offer connector refuses) m offered).value.2.agents.get? name =
      (m.agents.get? name).or
        (if name = offered ∧ refuses name = false then some ⟨p.agentOf name, connector⟩
          else none) := by
  rw [manager_offerAgent connector refuses h]
  by_cases hname : name = offered
  · subst hname
    cases hrefuses : refuses name with
    | true => simp
    | false =>
      cases hentry : m.agents.get? name with
      | some reg => simp [Manager.isRegistered, Table.contains, hentry]
      | none => simp [Manager.isRegistered, Table.contains, hentry, Table.get?_insert]
  · rw [if_neg (show ¬ (name = offered ∧ refuses name = false) from fun hc => hname hc.1),
      Option.or_none]
    split
    · rfl
    · rw [Table.get?_insert, if_neg hname]

/-- The manager after all offers: they are made one by one. -/
theorem manager_registerAll {σ : Type} (p : Provider) (offer : Offer σ) (s : σ) :
    (p.registerAll offer s).value.2 =
      p.agentNames.foldl (fun s name => (p.offerAgent offer s name).value.2) s := by
  unfold registerAll
  -- how many agents were taken so far makes no difference to the registry
  generalize 0 = taken
  induction p.agentNames generalizing taken s with
  | nil => rfl
  | cons name rest ih => exact ih _ _

/-- **What is registered under a name stays; otherwise it is what the provider grants.** -/
theorem get?_registerAll (h : p.catalog.InOrder) (m : ScriptedManager) (name : String) :
    (p.registerAll (Session.offer connector refuses) m).value.2.agents.get? name =
      (m.agents.get? name).or (p.granted? connector refuses name) := by
  have hfold : ∀ (names : List String) (m : ScriptedManager),
      (names.foldl (fun s offered =>
        (p.offerAgent (Session.offer connector refuses) s offered).value.2) m).agents.get? name =
      (m.agents.get? name).or
        (if name ∈ names ∧ refuses name = false then some ⟨p.agentOf name, connector⟩
          else none) := by
    intro names
    induction names with
    | nil => simp
    | cons offered rest ih =>
      intro m
      rw [List.foldl_cons, ih, get?_offerAgent connector refuses h, Option.or_assoc]
      congr 1
      by_cases hname : name = offered
      · subst hname
        cases refuses name <;> simp
      · simp [hname]
  rw [manager_registerAll]
  exact hfold p.agentNames m

/-- The agent that a provider offers has the actions of its catalog, which one dispatcher does. -/
theorem get?_agentOf (p : Provider) (name action : String) :
    (p.agentOf name).actions.get? action =
      (p.catalog.lookup name action).map fun _ => p.dispatcher :=
  Table.get?_mapValues (p.catalog.actionsOf name) (fun _ => p.dispatcher) action

end Provider

/-! ## Routing -/

namespace ScriptedManager

variable (m : ScriptedManager) (files : Files) (c : Context) (ts : Tokens) (now : Nat)
  (s : Schedule) (r : Request)

/-- A manager lets a dispatcher answer a request. -/
def Routes (d : Dispatcher) : Prop :=
  ∃ reg, m.agents.get? r.agent = some reg ∧ reg.handler.actions.get? r.action = some d

/-- A request without an agent or without an action is for an unknown action. -/
theorem status_of_unrouted (h : ∀ d, ¬ m.Routes r d) :
    (m.answer files c ts now s r).value.reply.status = .unknownAction := by
  unfold answer Manager.route Agent.handle
  cases hentry : m.agents.get? r.agent with
  | none =>
    simp only [Logged.value_bind, Logged.value_pure]
    rfl
  | some reg =>
    cases haction : reg.handler.actions.get? r.action with
    | none =>
      simp only [haction, Logged.value_bind, Logged.value_pure]
      rfl
    | some d => exact absurd ⟨reg, hentry, haction⟩ (h d)

/-- Otherwise the dispatcher of the action answers it. -/
theorem reply_of_routes {d : Dispatcher} (h : m.Routes r d) :
    (m.answer files c ts now s r).value.reply = (d.dispatch files c ts now s r).value.reply := by
  obtain ⟨reg, hentry, haction⟩ := h
  unfold answer Manager.route Agent.handle
  simp only [hentry, haction, Logged.value_bind, Logged.value_pure]

end ScriptedManager

end ScriptedActions
