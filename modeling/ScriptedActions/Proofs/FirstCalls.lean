import Mathlib.Logic.Function.Basic
import ScriptedActions.Agent.Agent
import ScriptedActions.Agent.Manager
import ScriptedActions.Proofs.Table

/-!
# Who registers first

Calls that register actions with agents and agents with a manager, one after the other, and requests
in between. A table keeps the first value of a name, so everything that a registry has and answers
is told by the list of the calls that were made before: `firstHandler` and `firstAgent` look through
this list, and `verdict` says what another call comes to.

An agent is registered by its value: what is done with its original later on is no matter of the
manager. So an agent that is offered stands in the call itself.
-/

set_option autoImplicit false

namespace ScriptedActions

/-- A manager, and agents that are being made, each under a number. -/
structure Registry (η : Type) where
  manager : Manager (Agent η)
  agents : Nat → Agent η

namespace Registry

variable {η : Type}

/-- What is to be registered: an action with one of the agents, or an agent with the manager. -/
inductive Entry (η : Type) where
  | action (agent : Nat) (action : String) (handler : η)
  | agent (name : String) (offered : Agent η) (connector : String)

inductive Call (η : Type) where
  | enter (e : Entry η)
  | dispatch (r : Request)

/-- Where a request goes: to a handler that runs, or to a reply without one. -/
inductive Target (η : Type) where
  | handler (h : η)
  | unknown (reply : Reply)

/-- What a call comes to. -/
inductive Result (η : Type) where
  | registered
  | refused (e : ProviderError)
  | routed (target : Target η)

/-- A manager without agents, and agents without actions. -/
def start (names : Nat → String) : Registry η := ⟨.empty, fun k => .new (names k)⟩

/-- Where a manager sends a request. -/
def target (m : Manager (Agent η)) (r : Request) : Target η :=
  (m.route r (fun a => a.handle r (fun h => pure (.handler h)) .unknown) .unknown).value

/-- A call that is made while no other one is. -/
def perform (s : Registry η) : Call η → Registry η × Result η
  | .enter (.action k action h) =>
    match (s.agents k).register action h with
    | .ok a => ({ s with agents := Function.update s.agents k a }, .registered)
    | .error e => (s, .refused e)
  | .enter (.agent name offered connector) =>
    match (s.manager.register name offered connector).value with
    | .ok m => ({ s with manager := m }, .registered)
    | .error e => (s, .refused e)
  | .dispatch r => (s, .routed (target s.manager r))

/-- The registry after calls that were made one after the other. -/
def replay (names : Nat → String) (calls : List (Call η)) : Registry η :=
  calls.foldl (fun s c => (s.perform c).1) (start names)

/-! ## The first calls -/

/-- The handler that was registered first for an action of an agent. -/
def firstHandler (calls : List (Call η)) (k : Nat) (action : String) : Option η :=
  calls.findSome? fun
    | .enter (.action j x h) => if j = k ∧ x = action then some h else none
    | _ => none

/-- The agent that was registered first under a name, and its connector. -/
def firstAgent (calls : List (Call η)) (name : String) : Option (Registration (Agent η)) :=
  calls.findSome? fun
    | .enter (.agent n a connector) => if n = name then some ⟨a, connector⟩ else none
    | _ => none

/-- Where a request goes behind others: to the handler that was registered first, in the agent that
was registered first. -/
def firstTarget (calls : List (Call η)) (r : Request) : Target η :=
  match firstAgent calls r.agent with
  | none => .unknown (Manager.unknownAgent r.agent)
  | some reg =>
    match reg.handler.actions.get? r.action with
    | none => .unknown (reg.handler.unknownAction r.action)
    | some h => .handler h

/-- What a call comes to behind others. -/
def verdict (names : Nat → String) (calls : List (Call η)) : Call η → Result η
  | .enter (.action k action _) =>
    if (firstHandler calls k action).isSome
    then .refused (.actionAlreadyRegistered (names k) action) else .registered
  | .enter (.agent name _ _) =>
    if (firstAgent calls name).isSome then .refused (.agentAlreadyRegistered name) else .registered
  | .dispatch r => .routed (firstTarget calls r)

/-- A registry has what was registered first, in the order of the names. -/
structure Keeps (names : Nat → String) (calls : List (Call η)) (s : Registry η) : Prop where
  agents : ∀ name, s.manager.agents.get? name = firstAgent calls name
  agentNames : s.manager.agentNames.Pairwise (· < ·)
  actions : ∀ k action, (s.agents k).actions.get? action = firstHandler calls k action
  actionNames : ∀ k, (s.agents k).actionNames.Pairwise (· < ·)
  named : ∀ k, (s.agents k).name = names k

/-! ## One call -/

/-- Whether there is something under the name of an entry already. -/
def taken (s : Registry η) : Entry η → Bool
  | .action k action _ => (s.agents k).hasAction action
  | .agent name _ _ => s.manager.isRegistered name

/-- Why an entry is refused whose name is taken. -/
def refusal (s : Registry η) : Entry η → ProviderError
  | .action k action _ => .actionAlreadyRegistered (s.agents k).name action
  | .agent name _ _ => .agentAlreadyRegistered name

/-- Puts an entry into its table, whether or not its name is taken. -/
def write (s : Registry η) : Entry η → Registry η
  | .action k action h =>
    let a := s.agents k
    { s with agents := Function.update s.agents k { a with actions := a.actions.insert action h } }
  | .agent name offered connector =>
    { s with manager := ⟨s.manager.agents.insert name ⟨offered, connector⟩⟩ }

/-- To register is to ask first, and to write then. -/
theorem perform_enter (s : Registry η) (e : Entry η) :
    s.perform (.enter e) =
      if s.taken e then (s, .refused (s.refusal e)) else (s.write e, .registered) := by
  by_cases htaken : s.taken e = true
  · rw [if_pos htaken]
    cases e with
    | action k action h =>
      have hhas : (s.agents k).hasAction action = true := htaken
      simp only [perform, Agent.register, if_pos hhas, refusal]
    | agent name offered connector =>
      have hhas : s.manager.isRegistered name = true := htaken
      simp only [perform, Manager.register, if_pos hhas, refusal, Logged.value_pure]
  · rw [if_neg htaken]
    cases e with
    | action k action h =>
      have hnew : ¬ (s.agents k).hasAction action = true := htaken
      simp only [perform, Agent.register, if_neg hnew, write]
    | agent name offered connector =>
      have hnew : ¬ s.manager.isRegistered name = true := htaken
      simp only [perform, Manager.register, if_neg hnew, write, Logged.value_bind,
        Logged.value_pure]

theorem replay_append (names : Nat → String) (calls : List (Call η)) (c : Call η) :
    replay names (calls ++ [c]) = ((replay names calls).perform c).1 := by
  unfold replay
  rw [List.foldl_append]
  rfl

theorem firstHandler_append (calls : List (Call η)) (c : Call η) (k : Nat) (action : String) :
    firstHandler (calls ++ [c]) k action =
      (firstHandler calls k action).or (firstHandler [c] k action) :=
  List.findSome?_append

theorem firstAgent_append (calls : List (Call η)) (c : Call η) (name : String) :
    firstAgent (calls ++ [c]) name = (firstAgent calls name).or (firstAgent [c] name) :=
  List.findSome?_append

theorem firstHandler_one (j : Nat) (x : String) (h : η) (k : Nat) (action : String) :
    firstHandler [.enter (.action j x h)] k action =
      if j = k ∧ x = action then some h else none := by
  unfold firstHandler
  rw [List.findSome?_singleton]

theorem firstAgent_one (n : String) (a : Agent η) (connector name : String) :
    firstAgent [.enter (.agent n a connector)] name =
      if n = name then some ⟨a, connector⟩ else none := by
  unfold firstAgent
  rw [List.findSome?_singleton]

variable {names : Nat → String} {calls : List (Call η)} {s : Registry η}

theorem Keeps.target (h : Keeps names calls s) (r : Request) :
    target s.manager r = firstTarget calls r := by
  unfold Registry.target Manager.route firstTarget
  rw [h.agents]
  cases firstAgent calls r.agent with
  | none => rfl
  | some reg =>
    simp only
    unfold Agent.handle
    cases reg.handler.actions.get? r.action <;> rfl

/-- What a call comes to is told by the calls before it. -/
theorem Keeps.result (h : Keeps names calls s) (c : Call η) :
    (s.perform c).2 = verdict names calls c := by
  cases c with
  | enter e =>
    rw [perform_enter]
    cases e with
    | action k action x =>
      simp only [taken, Agent.hasAction, Table.contains, h.actions, refusal, h.named, verdict]
      split <;> rfl
    | agent name offered connector =>
      simp only [taken, Manager.isRegistered, Table.contains, h.agents, refusal, verdict]
      split <;> rfl
  | dispatch r => exact congrArg Result.routed (h.target r)

/-- A call that changes nothing leaves nothing to be found behind those before it. -/
theorem Keeps.same (h : Keeps names calls s) {c : Call η}
    (hagent : ∀ name, (firstAgent [c] name).isSome → (s.manager.agents.get? name).isSome)
    (hhandler : ∀ k action, (firstHandler [c] k action).isSome →
      ((s.agents k).actions.get? action).isSome) : Keeps names (calls ++ [c]) s := by
  have hor {α : Type} {x y : Option α} (hxy : y.isSome → x.isSome) : x = x.or y := by
    cases x with
    | some a => rfl
    | none =>
      cases y with
      | none => rfl
      | some b => exact absurd (hxy rfl) Bool.false_ne_true
  refine ⟨fun name => ?_, h.agentNames, fun k action => ?_, h.actionNames, h.named⟩
  · rw [firstAgent_append, ← h.agents]
    exact hor (hagent name)
  · rw [firstHandler_append, ← h.actions]
    exact hor (hhandler k action)

/-- A name that was not taken is bound to its first value. -/
theorem Keeps.write (h : Keeps names calls s) {e : Entry η} (hnew : s.taken e = false) :
    Keeps names (calls ++ [.enter e]) (s.write e) := by
  cases e with
  | agent name offered connector =>
    have hnone : firstAgent calls name = none := by
      rw [← h.agents]
      exact Option.not_isSome_iff_eq_none.mp (ne_true_of_eq_false hnew)
    -- the agents themselves are as before
    refine ⟨fun n => ?_, Table.Sorted.insert h.agentNames _ _, fun k action => ?_, h.actionNames,
      h.named⟩
    · rw [firstAgent_append, firstAgent_one]
      show (s.manager.agents.insert name ⟨offered, connector⟩).get? n = _
      rw [Table.get?_insert, h.agents]
      by_cases hn : n = name
      · subst hn
        rw [if_pos rfl, if_pos rfl, hnone, Option.none_or]
      · rw [if_neg hn, if_neg (Ne.symm hn), Option.or_none]
    · rw [firstHandler_append]
      exact (h.actions k action).trans Option.or_none.symm
  | action k action x =>
    have hnone : firstHandler calls k action = none := by
      rw [← h.actions]
      exact Option.not_isSome_iff_eq_none.mp (ne_true_of_eq_false hnew)
    let a : Agent η := { s.agents k with actions := (s.agents k).actions.insert action x }
    have hself : (s.write (.action k action x)).agents k = a := Function.update_self ..
    have hother {j : Nat} (hj : j ≠ k) : (s.write (.action k action x)).agents j = s.agents j :=
      Function.update_of_ne hj ..
    -- the manager is as before, and so is every other agent
    refine ⟨fun n => ?_, h.agentNames, fun j y => ?_, fun j => ?_, fun j => ?_⟩
    · rw [firstAgent_append]
      exact (h.agents n).trans Option.or_none.symm
    · rw [firstHandler_append, firstHandler_one]
      by_cases hj : j = k
      · subst hj
        rw [hself, Table.get?_insert, h.actions]
        by_cases hy : y = action
        · subst hy
          rw [if_pos rfl, if_pos ⟨rfl, rfl⟩, hnone, Option.none_or]
        · rw [if_neg hy, if_neg fun hsame => hy hsame.2.symm, Option.or_none]
      · rw [hother hj, h.actions, if_neg fun hsame => hj hsame.1.symm, Option.or_none]
    · by_cases hj : j = k
      · subst hj
        rw [hself]
        exact Table.Sorted.insert (h.actionNames j) _ _
      · rw [hother hj]
        exact h.actionNames j
    · by_cases hj : j = k
      · subst hj
        rw [hself]
        exact h.named j
      · rw [hother hj]
        exact h.named j

theorem Keeps.perform (h : Keeps names calls s) (c : Call η) :
    Keeps names (calls ++ [c]) (s.perform c).1 := by
  cases c with
  | dispatch r => exact h.same nofun nofun
  | enter e =>
    rw [perform_enter]
    split
    case isFalse hnew => exact h.write (eq_false_of_ne_true hnew)
    case isTrue htaken =>
      cases e with
      | agent name offered connector =>
        refine h.same (fun n hn => ?_) nofun
        rw [firstAgent_one, Option.isSome_ite] at hn
        exact hn ▸ htaken
      | action k action x =>
        refine h.same nofun fun j y hy => ?_
        rw [firstHandler_one, Option.isSome_ite] at hy
        obtain ⟨rfl, rfl⟩ := hy
        exact htaken

end Registry

end ScriptedActions
