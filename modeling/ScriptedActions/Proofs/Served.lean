import ScriptedActions.Proofs.Aborts
import ScriptedActions.Proofs.Session

/-!
# Requests that get to a dispatcher

Three tables stand between a request and a schema: the manager finds an agent, the agent finds a
dispatcher, and the dispatcher looks the schema up in its catalog. All three were filled from the
paths of schema files, and by nothing else: the names of a path are checked before there is a schema,
the catalog keeps the schema under these names, the agents of a provider have the names and actions
of its catalog, and each of their actions is done by a dispatcher that holds the same catalog.

So a request that gets past the first two tables is for names that are allowed and for a schema that
the third one has (`ScriptedManager.IsServed.of_routes`), and the errors for other names and for a
missing schema are never seen by a caller.
-/

set_option autoImplicit false

namespace ScriptedActions

/-! ## Managers that providers fill -/

namespace Provider

/-- A provider of a configuration that has looked for schemas some number of times, whatever the
files were each time. -/
inductive IsFound : Provider → Prop
  | setUp (k : Config) : IsFound ⟨k, .empty⟩
  | discover {p : Provider} (h : IsFound p) (files : Files) : IsFound (p.discover files).value

theorem IsFound.inOrder {p : Provider} (h : p.IsFound) : p.catalog.InOrder := by
  cases h with
  | setUp k => exact Catalog.inOrder_empty
  | discover h files => exact Schema.inOrder_discover files _

theorem IsFound.isNamed {p : Provider} (h : p.IsFound) : p.catalog.IsNamed := by
  cases h with
  | setUp k => exact Catalog.isNamed_empty
  | discover h files => exact Schema.isNamed_discover files _

/-- A manager that takes an agent, if it takes it, under the name of the agent, and that makes up no
agents. It may refuse agents, and it may forget others. -/
def IsFaithful (offer : Offer ScriptedManager) : Prop :=
  ∀ a m name reg, (offer a m).value.2.agents.get? name = some reg →
    m.agents.get? name = some reg ∨ name = a.name ∧ reg.handler = a

/-- Managers that keep the first agent of a name and refuse some names are such. -/
theorem isFaithful_offer (connector : String) (refuses : String → Bool) :
    IsFaithful (Session.offer connector refuses) := by
  intro a m name reg h
  unfold Session.offer ScriptedManager.offer Manager.register at h
  split at h
  · exact .inl h
  · split at h
    · exact .inl h
    · simp only [Logged.value_bind, Logged.value_pure, Table.get?_insert] at h
      split at h
      case isTrue hname =>
        cases h
        exact .inr ⟨hname, rfl⟩
      case isFalse => exact .inl h

end Provider

namespace ScriptedManager

/-- All agents of a manager were registered by providers. -/
inductive IsFilled : ScriptedManager → Prop
  | empty : IsFilled Manager.empty
  | registerAll {m : ScriptedManager} (h : IsFilled m) {p : Provider} (hp : p.IsFound)
    {offer : Provider.Offer ScriptedManager} (hoffer : Provider.IsFaithful offer) :
    IsFilled (p.registerAll offer m).value.2

/-- What an offer to register adds is the agent that was offered. -/
theorem agent_of_offers {p : Provider} (hp : p.IsFound) {offer : Provider.Offer ScriptedManager}
    (hoffer : Provider.IsFaithful offer) (names : List String) {m : ScriptedManager} {name : String}
    {reg : Registration (Agent Dispatcher)}
    (h : (names.foldl (fun m name => (p.offerAgent offer m name).value.2) m).agents.get? name =
      some reg) :
    m.agents.get? name = some reg ∨ reg.handler = p.agentOf name := by
  induction names generalizing m with
  | nil => exact .inl h
  | cons offered rest ih =>
    rcases ih h with hstep | hagent
    · beta_reduce at hstep
      rw [Provider.value_offerAgent hp.inOrder] at hstep
      rcases hoffer _ _ _ _ hstep with hold | ⟨hname, hagent⟩
      · exact .inl hold
      · right
        rw [hagent, hname]
        rfl
    · exact .inr hagent

/-- **Every agent of a filled manager is the one that some provider has for its name.** -/
theorem IsFilled.agent {m : ScriptedManager} (h : m.IsFilled) {name : String}
    {reg : Registration (Agent Dispatcher)} (hreg : m.agents.get? name = some reg) :
    ∃ p : Provider, p.IsFound ∧ reg.handler = p.agentOf name := by
  induction h with
  | empty => cases hreg
  | registerAll hm hp hoffer ih =>
    rw [Provider.manager_registerAll] at hreg
    rcases agent_of_offers hp hoffer _ hreg with hold | hagent
    · exact ih hold
    · exact ⟨_, hp, hagent⟩

/-! ## What is served -/

/-- The names of a request are allowed, and a dispatcher has a schema under them. -/
structure IsServed (r : Request) (d : Dispatcher) : Prop where
  agent : Naming.check r.agent = .ok ()
  action : Naming.check r.action = .ok ()
  schema : ∃ schema, d.catalog.lookup r.agent r.action = some schema ∧
    schema.agent = r.agent ∧ schema.action = r.action

/-- **What a filled manager routes to a dispatcher is served by it.** -/
theorem IsServed.of_routes {m : ScriptedManager} (h : m.IsFilled) {r : Request} {d : Dispatcher}
    (hroutes : m.Routes r d) : IsServed r d := by
  obtain ⟨reg, hreg, haction⟩ := hroutes
  obtain ⟨p, hp, hagent⟩ := h.agent hreg
  rw [hagent, Provider.get?_agentOf, Option.map_eq_some_iff] at haction
  obtain ⟨schema, hlookup, rfl⟩ := haction
  obtain ⟨hagent, haction, hcheck, hcheck'⟩ := hp.isNamed _ _ _ hlookup
  exact ⟨hcheck, hcheck', schema, hlookup, hagent, haction⟩

variable {r : Request} {d : Dispatcher} (files : Files) (c : Context) (ts : Tokens) (now : Nat)
  (s : Schedule)

/-- Reading the script of a request that is served fails only because of the file. -/
theorem IsServed.resolve (h : IsServed r d) :
    (d.scripts.resolve files r.agent r.action).value =
      (files.read (d.scripts.pathOf r.agent r.action)).mapError fun e =>
        .scriptUnavailable (d.scripts.pathOf r.agent r.action).text e.message := by
  rw [ScriptDirectory.value_resolve]
  unfold ScriptDirectory.source
  rw [h.agent, h.action]

/-- A dispatch of a request that is served fails because of the file of its script, or neither the
script nor the schema is to blame. -/
theorem IsServed.error (h : IsServed r d) {e : DispatchError} {stage : DispatchState}
    (hfails : d.Fails files c ts now s r e stage) :
    (∃ f, files.read (d.scripts.pathOf r.agent r.action) = .error f ∧
        e = .scriptUnavailable (d.scripts.pathOf r.agent r.action).text f.message) ∨
      e.tag ∉ ["script_unavailable", "schema_lookup_failure"] := by
  cases hfails with
  | unresolved hresolved =>
    rw [h.resolve] at hresolved
    cases hread : files.read (d.scripts.pathOf r.agent r.action) with
    | error f =>
      rw [hread] at hresolved
      cases hresolved
      exact .inl ⟨f, rfl, rfl⟩
    | ok bytes =>
      rw [hread] at hresolved
      cases hresolved
  | unprepared hresolved hprepared =>
    rcases Dispatcher.error_of_prepare hprepared with ⟨name, reason, rfl⟩ | ⟨hnone, rfl⟩
    · right
      simp [DispatchError.tag]
    · obtain ⟨schema, hlookup, -⟩ := h.schema
      cases hnone.symm.trans hlookup
  | thread hthread hwaits houtcome =>
    right
    obtain ⟨source, schema, b, -, rfl⟩ := Dispatcher.prepare_of_thread? hthread
    rcases Dispatcher.error_of_thread houtcome with ⟨diagnostic, rfl, -⟩ |
      ⟨⟨name, reason, rfl⟩ | ⟨err, hends, rfl⟩, -⟩
    · simp [DispatchError.tag]
    · simp [DispatchError.tag]
    · cases hends <;> simp [DispatchError.ofScript, DispatchError.tag]
  | givenUp =>
    right
    simp [DispatchError.tag]

/-- The message of the reply to a request that is served. -/
theorem IsServed.message (h : IsServed r d) {e : DispatchError}
    (hreply : (d.dispatch files c ts now s r).value.reply = .aborted e.message) :
    (∃ f, files.read (d.scripts.pathOf r.agent r.action) = .error f ∧
        e.message = (DispatchError.scriptUnavailable
          (d.scripts.pathOf r.agent r.action).text f.message).message) ∨
      e.tag ∉ ["script_unavailable", "schema_lookup_failure"] := by
  rcases d.completes_or_fails files c ts now s r with ⟨hstatus, -⟩ |
    ⟨e', stage, hfails, hreply', -⟩
  · rw [hreply] at hstatus
    cases hstatus
  · have hmessage : e.message = e'.message := congrArg (·.message) (hreply.symm.trans hreply')
    rcases h.error files c ts now s hfails with ⟨f, hread, rfl⟩ | htag
    · exact .inl ⟨f, hread, hmessage⟩
    · right
      rwa [DispatchError.tag_of_message hmessage]

/-- What is said of a name is not what is said of a file. -/
theorem message_ne_message (f : FileError) (n : NameError) (subject : String)
    (h : subject ∈ ["agent ", "action "]) : f.message ≠ subject ++ n.message := by
  intro heq
  have hhead : f.message.toList.head? = some 'a' := by
    rw [heq, String.toList_append]
    rcases List.mem_pair.mp h with rfl | rfl <;> rfl
  cases f <;> exact absurd hhead (by decide)

theorem reason_of_message {path reason reason' : String}
    (h : (DispatchError.scriptUnavailable path reason).message =
      (DispatchError.scriptUnavailable path reason').message) : reason = reason' := by
  unfold DispatchError.message at h
  simpa [String.ext_iff] using h

/-- A request that no dispatcher answers is not aborted. -/
theorem exists_routes {m : ScriptedManager}
    (h : (m.answer files c ts now s r).value.reply.status = .aborted) : ∃ d, m.Routes r d := by
  by_contra hnone
  have hunknown := m.status_of_unrouted files c ts now s r fun d hd => hnone ⟨d, hd⟩
  cases hunknown.symm.trans h

theorem reply_of_aborted (m : ScriptedManager) (files : Files) (c : Context) (ts : Tokens)
    (now : Nat) (s : Schedule) (r : Request)
    (h : (m.answer files c ts now s r).value.reply.status = .aborted) :
    (m.answer files c ts now s r).value.reply =
      .aborted (m.answer files c ts now s r).value.reply.message := by
  obtain ⟨d, hroutes⟩ := exists_routes files c ts now s h
  rw [m.reply_of_routes files c ts now s r hroutes] at h ⊢
  exact d.reply_of_aborted files c ts now s r h

/-- **What callers of a filled manager never see.** A request that gets to a dispatcher has names that
are allowed, and the catalog of the dispatcher has a schema under them. So no request is aborted
because there is no schema, and one is aborted for want of a script only if the file cannot be read,
never because of a name. The agents of the providers can always be built. -/
theorem served {m : ScriptedManager} (h : m.IsFilled) :
    (∀ r d, m.Routes r d → IsServed r d) ∧
    (∀ files c ts now s r, let reply := (m.answer files c ts now s r).value.reply
      (∀ agent action, reply ≠ .aborted (DispatchError.schemaLookupFailure agent action).message) ∧
      (∀ path reason, reply = .aborted (DispatchError.scriptUnavailable path reason).message →
        ∃ d f, m.Routes r d ∧ files.read (d.scripts.pathOf r.agent r.action) = .error f ∧
          reply = .aborted (DispatchError.scriptUnavailable
            (d.scripts.pathOf r.agent r.action).text f.message).message) ∧
      ∀ d (n : NameError), m.Routes r d → ∀ subject ∈ ["agent ", "action "],
        reply ≠ .aborted (DispatchError.scriptUnavailable
          (d.scripts.pathOf r.agent r.action).text (subject ++ n.message)).message) ∧
    ∀ p : Provider, p.IsFound → ∀ name, p.agent name = .ok (p.agentOf name) := by
  refine ⟨fun r d => .of_routes h, fun files c ts now s r => ?_, fun p hp => Provider.agent_eq hp.inOrder⟩
  -- what is said of a reply is said of the reply of the dispatcher that made it
  have hmessage : ∀ d, m.Routes r d → ∀ e : DispatchError,
      (m.answer files c ts now s r).value.reply = .aborted e.message →
      (∃ f, files.read (d.scripts.pathOf r.agent r.action) = .error f ∧
        e.message = (DispatchError.scriptUnavailable
          (d.scripts.pathOf r.agent r.action).text f.message).message) ∨
      e.tag ∉ ["script_unavailable", "schema_lookup_failure"] := by
    intro d hroutes e hreply
    rw [m.reply_of_routes files c ts now s r hroutes] at hreply
    exact (IsServed.of_routes h hroutes).message files c ts now s hreply
  refine ⟨fun agent action hreply => ?_, fun path reason hreply => ?_,
    fun d n hroutes subject hsubject hreply => ?_⟩
  · obtain ⟨d, hroutes⟩ := exists_routes files c ts now s (congrArg (·.status) hreply)
    rcases hmessage d hroutes _ hreply with ⟨f, -, hsame⟩ | htag
    · exact absurd (DispatchError.tag_of_message hsame) (by simp [DispatchError.tag])
    · exact htag (by simp [DispatchError.tag])
  · obtain ⟨d, hroutes⟩ := exists_routes files c ts now s (congrArg (·.status) hreply)
    rcases hmessage d hroutes _ hreply with ⟨f, hread, hsame⟩ | htag
    · exact ⟨d, f, hroutes, hread, hsame ▸ hreply⟩
    · exact absurd (by simp [DispatchError.tag]) htag
  · rcases hmessage d hroutes _ hreply with ⟨f, -, hsame⟩ | htag
    · exact message_ne_message f n subject hsubject (reason_of_message hsame).symm
    · exact htag (by simp [DispatchError.tag])

end ScriptedManager

namespace Session

/-- Steps of a session keep its provider one that has looked for schemas, and its manager filled. -/
theorem isFilled_step {s : Session} (hp : s.provider.IsFound) (hm : s.manager.IsFilled)
    (e : SessionStep) : (s.step e).value.provider.IsFound ∧ (s.step e).value.manager.IsFilled := by
  cases e with
  | discover => exact ⟨.discover hp s.files, hm⟩
  | register connector refuses =>
    exact ⟨hp, .registerAll hm hp (Provider.isFaithful_offer connector refuses)⟩
  | write p t => exact ⟨hp, hm⟩
  | remove p => exact ⟨hp, hm⟩
  | dispatch c now sch r => exact ⟨hp, hm⟩

/-- **The manager of every session is filled.** -/
theorem isFilled_run (k : Config) (files : Files) (ts : Tokens) (steps : List SessionStep) :
    ((begin k files ts).run steps).manager.IsFilled := by
  suffices h : ∀ s : Session, s.provider.IsFound → s.manager.IsFilled →
      (s.run steps).manager.IsFilled from h _ (.setUp k) .empty
  induction steps with
  | nil => exact fun s hp hm => hm
  | cons e rest ih =>
    intro s hp hm
    obtain ⟨hp', hm'⟩ := isFilled_step hp hm e
    exact ih (s.step e).value hp' hm'

/-- The session of the host that has registered an action, its files gone then. -/
def abandoned : Session :=
  home.run (registering "export const count = 1;" ++ [.remove ⟨"scripts"⟩])

/-- The action of that host is served still, and its reply tells of the file. -/
theorem served_abandoned :
    let r := Dispatcher.probeRequest "null"
    let reply := (abandoned.manager.answer abandoned.files (.ofToken 0) abandoned.tokens 0 .prompt
      r).value.reply
    reply.message = (DispatchError.scriptUnavailable "scripts/probe/look.rhai"
        FileError.notFound.message).message ∧
      ∃ d f, abandoned.manager.Routes r d ∧ ScriptedManager.IsServed r d ∧
        abandoned.files.read (d.scripts.pathOf r.agent r.action) = .error f ∧
        reply = .aborted (DispatchError.scriptUnavailable
          (d.scripts.pathOf r.agent r.action).text f.message).message := by
  have hfilled : abandoned.manager.IsFilled := by
    unfold abandoned home
    exact isFilled_run _ _ _ _
  obtain ⟨hserved, hreplies, -⟩ := ScriptedManager.served hfilled
  obtain ⟨-, hunavailable, -⟩ := hreplies abandoned.files (.ofToken 0) abandoned.tokens 0 .prompt
    (Dispatcher.probeRequest "null")
  have hstatus : (abandoned.manager.answer abandoned.files (.ofToken 0) abandoned.tokens 0 .prompt
      (Dispatcher.probeRequest "null")).value.reply.status = .aborted := by decide +kernel
  have hmessage : (abandoned.manager.answer abandoned.files (.ofToken 0) abandoned.tokens 0 .prompt
      (Dispatcher.probeRequest "null")).value.reply.message =
        (DispatchError.scriptUnavailable "scripts/probe/look.rhai"
          FileError.notFound.message).message := by decide +kernel
  have hreply := abandoned.manager.reply_of_aborted _ _ _ _ _ _ hstatus
  rw [hmessage] at hreply
  obtain ⟨d, f, hroutes, hread, hsame⟩ := hunavailable _ _ hreply
  exact ⟨hmessage, d, f, hroutes, hserved _ d hroutes, hread, hsame⟩

end Session

end ScriptedActions
