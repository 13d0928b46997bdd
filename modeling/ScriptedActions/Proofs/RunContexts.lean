import ScriptedActions.Proofs.Contexts
import ScriptedActions.Proofs.Dispatch
import ScriptedActions.Provider.Provider

/-!
# The context of a run

A dispatch does not run a script under the context of its caller but under one below it, which is
bounded by the timeout of the action as well. Two things are said of this: when the run has to end,
and that the caller does not notice.

**When the run has to end.** The timeout is that of the schema, unless the schema has none or zero
seconds, and else that of the dispatcher; the deadline is the earlier one of the caller's and the
one that the timeout gives (`Dispatcher.deadline_runContext`). A moment that the clock cannot count
to is no deadline, so an action need not have one; under a provider that was set up the timeout is
a day at most, and as long as the clock can count to its end there is a deadline
(`Provider.exists_deadline`).

**That the caller does not notice.** What a dispatch does to contexts are steps of a host, which are
listed in `Dispatcher.contextSteps`: it derives a context, bounds it, and cancels that one when it
gives up. So what holds of any steps holds of these, and they hit no token but a new one.
-/

set_option autoImplicit false

namespace ScriptedActions

/-! ## Deadlines -/

namespace Clock

/-- The clock counts to the exact sum or not at all. -/
theorem after?_eq_some_iff {now timeout ends : Nat} :
    after? now timeout = some ends ↔ ends = now + timeout ∧ ends / second < secondsBound := by
  unfold after?
  split
  case isTrue h =>
    constructor
    · intro heq
      cases heq
      exact ⟨rfl, h⟩
    · rintro ⟨rfl, -⟩
      rfl
  case isFalse h =>
    constructor
    · intro heq
      cases heq
    · rintro ⟨rfl, hlt⟩
      exact absurd hlt h

end Clock

/-- There is an earliest one among some deadlines. -/
theorem exists_min? {ds : List Nat} {e : Nat} (he : e ∈ ds) : ∃ e' ≤ e, ds.min? = some e' := by
  cases hmin : ds.min? with
  | none =>
    rw [List.min?_eq_none_iff.mp hmin] at he
    cases he
  | some e' => exact ⟨e', (List.min?_eq_some_iff.mp hmin).2 e he, rfl⟩

namespace Dispatcher

variable (d : Dispatcher) (schema : ActionSchema) (c : Context) (ts : Tokens) (now : Nat)

/-- **The deadline of a run** is the earlier one of the caller's and the one of the action. -/
theorem deadline_runContext :
    (d.runContext schema c ts now).1.deadline =
      (c.deadline.toList ++ (Clock.after? now (d.timeoutOf schema)).toList).min? := by
  have hmin : c.deadline.toList.min? = c.deadline := by cases c.deadline <;> rfl
  rw [Contexts.min?_append_bound, hmin]
  exact Contexts.deadline_within (c.child ts).1 now (d.timeoutOf schema)

/-- A run never lasts longer than its caller allows. -/
theorem deadline_le {ends : Nat} (h : c.deadline = some ends) :
    ∃ ends' ≤ ends, (d.runContext schema c ts now).1.deadline = some ends' := by
  rw [deadline_runContext]
  exact exists_min? (List.mem_append_left _ (Option.mem_toList.mpr h))

theorem timeoutOf_of_none {schema : ActionSchema} (h : schema.timeout = none) :
    d.timeoutOf schema = d.defaultTimeout := by
  unfold timeoutOf
  rw [h]
  rfl

theorem timeoutOf_of_some {schema : ActionSchema} {seconds : Nat}
    (h : schema.timeout = some seconds) : d.timeoutOf schema = seconds * Clock.second := by
  unfold timeoutOf
  rw [h]
  rfl

end Dispatcher

/-! ## Providers that were set up -/

/-- The timeout of an accepted configuration is neither nothing nor more than a day. -/
theorem Config.defaultTimeout_of_validate {k : Config} (h : k.validate = .ok ()) :
    0 < k.defaultTimeout ∧ k.defaultTimeout ≤ maxTimeout := by
  unfold validate at h
  split at h
  · cases h
  split at h
  · cases h
  case isFalse hzero =>
    split at h
    · cases h
    case isFalse hmax => exact ⟨Nat.pos_of_ne_zero hzero, Nat.le_of_not_lt hmax⟩

namespace Provider

/-- A provider that was set up has the configuration that was given, and it was accepted. -/
theorem config_of_setUp {k : Config} {e : Environment} {stamp : Timestamp} {files : Files}
    {receiver : Logging.Receiver} {p : Provider}
    (h : (setUp k e stamp files receiver).value.provider = .ok p) :
    p.config = k ∧ k.validate = .ok () := by
  unfold setUp at h
  cases hvalid : k.validate with
  | error error =>
    rw [hvalid] at h
    cases h
  | ok u =>
    rw [hvalid] at h
    simp only [Logged.value_bind, Logged.value_pure] at h
    split at h
    · cases h
      exact ⟨rfl, rfl⟩
    · cases h

/-- **Under a provider that was set up every run ends**: an action whose schema has no timeout gets
a deadline within a day, unless the clock cannot count to it. -/
theorem exists_deadline {p : Provider} (h : p.config.validate = .ok ()) {schema : ActionSchema}
    (hschema : schema.timeout = none) (c : Context) (ts : Tokens) (now : Nat) :
    Clock.after? now (p.config.defaultTimeout * Clock.second) = none ∨
      ∃ ends ≤ now + Config.maxTimeout * Clock.second,
        (p.dispatcher.runContext schema c ts now).1.deadline = some ends := by
  have htimeout : p.dispatcher.timeoutOf schema = p.config.defaultTimeout * Clock.second :=
    p.dispatcher.timeoutOf_of_none hschema
  have hle : p.config.defaultTimeout * Clock.second ≤ Config.maxTimeout * Clock.second :=
    Nat.mul_le_mul_right _ (Config.defaultTimeout_of_validate h).2
  cases hafter : Clock.after? now (p.config.defaultTimeout * Clock.second) with
  | none => exact .inl rfl
  | some latest =>
    obtain ⟨rfl, -⟩ := Clock.after?_eq_some_iff.mp hafter
    obtain ⟨ends, hends, hmin⟩ :=
      exists_min? (List.mem_append_right c.deadline.toList (Option.mem_toList.mpr hafter))
    rw [← htimeout, ← Dispatcher.deadline_runContext] at hmin
    exact .inr ⟨ends, Nat.le_trans hends (Nat.add_le_add_left hle now), hmin⟩

end Provider

/-! ## What a dispatch does to contexts -/

namespace Contexts

/-- What a host held it still holds, and none of it was cancelled. -/
def LeavesAlone (h h' : Contexts) : Prop :=
  ∀ (i : Nat) (c : Context), h.held[i]? = some c →
    h'.held[i]? = some c ∧ c.isCancelled h'.tokens = c.isCancelled h.tokens

/-- Of all tokens some steps hit none below a bound. -/
def HitFrom (bound : Nat) (h : Contexts) : List (Nat × ContextStep) → Prop
  | [] => True
  | e :: rest => (∀ t, h.hit? e.2 = some t → bound ≤ t) ∧ HitFrom bound (h.step e.1 e.2) rest

variable {h : Contexts} {steps : List (Nat × ContextStep)}

theorem isCancelled_of_hitFrom {bound : Nat} {c : Context} (hsound : h.IsSound)
    (hc : c.token < h.tokens.nodes.size) (hbound : c.token < bound) (hits : h.HitFrom bound steps) :
    c.isCancelled (h.run steps).tokens = c.isCancelled h.tokens := by
  induction steps generalizing h with
  | nil => rfl
  | cons e rest ih =>
    obtain ⟨hfirst, hrest⟩ := hits
    obtain ⟨n, hn, -⟩ := grows_step hsound e.1 e.2 c.token _ (Array.getElem?_eq_getElem hc)
    have hc' := (Array.getElem?_eq_some_iff.mp hn).1
    refine (ih (hsound.step e.1 e.2) hc' hrest).trans ?_
    refine isCancelled_step hsound e.1 e.2 hc fun t ht hunder => ?_
    -- what stands above a token is older than it
    have hle := hunder.le hsound.ordered
    have hge := hfirst t ht
    omega

/-- Steps that hit new tokens only leave all contexts alone. -/
theorem leavesAlone_of_hitFrom (hsound : h.IsSound)
    (hits : h.HitFrom h.tokens.nodes.size steps) : h.LeavesAlone (h.run steps) := by
  intro i c hc
  have hlt := hsound.token_lt hc
  exact ⟨held_run hsound steps hc, isCancelled_of_hitFrom hsound hlt hlt hits⟩

end Contexts

namespace Dispatcher

variable (d : Dispatcher) (files : Files) (now : Nat) (s : Schedule) (r : Request)
  {h : Contexts} {i : Nat} {c : Context}

/-- What a dispatch does to the contexts of a host which calls it with one of them: if it gets as
far as a run, it derives a context, bounds it, and cancels the bounded one when it gives up. -/
def contextSteps (h : Contexts) (i : Nat) (c : Context) : List (Nat × ContextStep) :=
  match (d.scripts.resolve files r.agent r.action).value, r.prepare d.catalog with
  | .ok source, .ok (schema, b) =>
    let stop := d.stopFor schema c h.tokens now s
    let run := thread d.engine (moduleText files) source b stop now s
    (now, .child i) :: (now, .within h.held.length (d.timeoutOf schema)) ::
      (givesUpAt? run stop now s).toList.map fun noticed =>
        (noticed, .cancel (h.held.length + 1))
  | _, _ => []

/-- A host that has derived the context of a run. -/
def derived (h : Contexts) (c : Context) (schema : ActionSchema) : Contexts :=
  ⟨(d.runContext schema c h.tokens now).2,
    h.held ++ [(c.child h.tokens).1, (d.runContext schema c h.tokens now).1]⟩

theorem step_child (hc : h.held[i]? = some c) :
    h.step now (.child i) = ⟨(c.child h.tokens).2, h.held ++ [(c.child h.tokens).1]⟩ := by
  simp only [Contexts.step, Contexts.derive, hc]

/-- Deriving a context and bounding it makes the context of the run. -/
theorem step_within (hc : h.held[i]? = some c) (schema : ActionSchema) :
    (h.step now (.child i)).step now (.within h.held.length (d.timeoutOf schema)) =
      d.derived now h c schema := by
  have hchild : (h.held ++ [(c.child h.tokens).1])[h.held.length]? = some (c.child h.tokens).1 :=
    List.getElem?_concat_length
  rw [step_child now hc]
  simp only [Contexts.step, Contexts.derive, hchild, derived, runContext, List.append_assoc,
    List.singleton_append]

/-- The context of a run has a token of its own. -/
theorem token_runContext (schema : ActionSchema) (ts : Tokens) :
    (d.runContext schema c ts now).1.token = ts.nodes.size :=
  Contexts.token_within (c.child ts).1 now (d.timeoutOf schema)

/-- The context of the run is the second one that is made. -/
theorem getElem?_derived (schema : ActionSchema) :
    (d.derived now h c schema).held[h.held.length + 1]? =
      some (d.runContext schema c h.tokens now).1 := by
  simp [derived]

/-- A dispatch does to the tokens what its steps do. -/
theorem tokens_dispatch (hc : h.held[i]? = some c) :
    (d.dispatch files c h.tokens now s r).value.tokens =
      (h.run (d.contextSteps files now s r h i c)).tokens := by
  unfold dispatch contextSteps
  cases hresolved : (d.scripts.resolve files r.agent r.action).value with
  | error e =>
    simp only [Logged.value_bind, hresolved, Logged.value_pure]
    rfl
  | ok source =>
    cases hprepared : r.prepare d.catalog with
    | error e =>
      simp only [Logged.value_bind, hresolved, Logged.value_pure]
      rfl
    | ok p =>
      obtain ⟨schema, b⟩ := p
      simp only [Logged.value_bind, hresolved, Logged.value_pure]
      simp only [Contexts.run, List.foldl_cons, step_within d now hc schema, stopFor]
      split
      case isTrue hgives =>
        obtain ⟨noticed, hnoticed⟩ := Option.isSome_iff_exists.mp hgives
        rw [hnoticed]
        simp only [Option.toList_some, List.map_cons, List.map_nil, List.foldl_cons,
          List.foldl_nil, Contexts.step, Contexts.hit?, getElem?_derived, Option.map_some,
          Option.elim_some]
        rfl
      case isFalse hgives =>
        rw [Option.not_isSome_iff_eq_none.mp hgives]
        rfl

/-- The contexts that a dispatch makes which gets as far as a run. -/
theorem held_contextSteps (hc : h.held[i]? = some c) {source : List UInt8} {schema : ActionSchema}
    {b : Script.Bindings}
    (hresolved : (d.scripts.resolve files r.agent r.action).value = .ok source)
    (hprepared : r.prepare d.catalog = .ok (schema, b)) :
    (h.run (d.contextSteps files now s r h i c)).held =
      h.held ++ [(c.child h.tokens).1, (d.runContext schema c h.tokens now).1] := by
  unfold contextSteps
  simp only [hresolved, hprepared, Contexts.run, List.foldl_cons, step_within d now hc schema]
  cases givesUpAt? _ _ now s with
  | none => rfl
  | some noticed =>
    simp only [Option.toList_some, List.map_cons, List.map_nil, List.foldl_cons, List.foldl_nil,
      Contexts.step, Contexts.hit?, getElem?_derived, Option.map_some, Option.elim_some]
    rfl

/-- **A dispatch leaves all contexts alone that there were before**, whatever comes of it. -/
theorem leavesAlone_contextSteps (hsound : h.IsSound) (hc : h.held[i]? = some c) :
    h.LeavesAlone (h.run (d.contextSteps files now s r h i c)) := by
  refine Contexts.leavesAlone_of_hitFrom hsound ?_
  unfold contextSteps
  split
  case h_2 => trivial
  case h_1 source schema b _ _ =>
    refine ⟨nofun, nofun, ?_⟩
    rw [step_within d now hc schema]
    cases givesUpAt? _ _ now s with
    | none => trivial
    | some noticed =>
      refine ⟨fun t ht => ?_, trivial⟩
      simp only [Contexts.hit?, getElem?_derived, Option.map_some, Option.some.injEq] at ht
      exact Nat.le_of_eq ((d.token_runContext now schema h.tokens).symm.trans ht)

/-- **How long a run may take, and what its caller notices.** The timeout is the one in the file of
the schema, unless there is none or it is zero, and else that of the dispatcher. The deadline of the
run is the earlier one of the caller's and the one that the timeout gives; a moment to which the
clock cannot count gives none. So it is never later than the caller's, and under a provider that was
set up an action without a timeout has one within a day, if the clock can count to it. A dispatch
derives the context of its run from the caller's and leaves alone all that the host holds, whatever
comes of it. -/
theorem bounded_run (f : SchemaFile) (agent action : String) (path : Option Path)
    (steps : List (Nat × ContextStep)) (hc : (Contexts.empty.run steps).held[i]? = some c) :
    let h := Contexts.empty.run steps
    let schema : ActionSchema := { ActionSchema.ofFile agent action f with path := path }
    let bounded (timeout : Nat) := (c.deadline.toList ++ (Clock.after? now timeout).toList).min?
    (f.timeout = none ∨ f.timeout = some 0 →
      (d.runContext schema c h.tokens now).1.deadline = bounded d.defaultTimeout) ∧
    (∀ seconds, f.timeout = some seconds → 0 < seconds →
      (d.runContext schema c h.tokens now).1.deadline = bounded (seconds * Clock.second)) ∧
    (∀ timeout ends, Clock.after? now timeout = some ends ↔
      ends = now + timeout ∧ ends / Clock.second < Clock.secondsBound) ∧
    (∀ ends, c.deadline = some ends →
      ∃ ends' ≤ ends, (d.runContext schema c h.tokens now).1.deadline = some ends') ∧
    (∀ k e stamp files receiver p catalog,
      (Provider.setUp k e stamp files receiver).value.provider = .ok p →
      f.timeout = none ∨ f.timeout = some 0 →
      Clock.after? now (k.defaultTimeout * Clock.second) = none ∨
        ∃ ends ≤ now + Config.maxTimeout * Clock.second,
          (({ p with catalog := catalog } : Provider).dispatcher.runContext schema c h.tokens
            now).1.deadline = some ends) ∧
    ∀ files s r,
      let h' := h.run (d.contextSteps files now s r h i c)
      (d.dispatch files c h.tokens now s r).value.tokens = h'.tokens ∧ h.LeavesAlone h' ∧
      ∀ source b, (d.scripts.resolve files r.agent r.action).value = .ok source →
        r.prepare d.catalog = .ok (schema, b) →
        h'.held = h.held ++ [(c.child h.tokens).1, (d.runContext schema c h.tokens now).1] := by
  intro h schema bounded
  have hsound : h.IsSound := Contexts.isSound_empty.run steps
  have hnone : f.timeout = none ∨ f.timeout = some 0 → schema.timeout = none := by
    rintro (hf | hf) <;> simp only [schema, ActionSchema.ofFile, hf] <;> rfl
  have hsome : ∀ seconds, f.timeout = some seconds → 0 < seconds →
      schema.timeout = some seconds := by
    intro seconds hf hpos
    simp only [schema, ActionSchema.ofFile, hf, Option.filter_some, hpos, decide_true, if_true]
  refine ⟨fun hf => ?_, fun seconds hf hpos => ?_, fun _ _ => Clock.after?_eq_some_iff,
    fun ends => d.deadline_le schema c h.tokens now, ?_, fun files s r => ?_⟩
  · rw [deadline_runContext, d.timeoutOf_of_none (hnone hf)]
  · rw [deadline_runContext, d.timeoutOf_of_some (hsome seconds hf hpos)]
  · intro k e stamp files receiver p catalog hsetUp hf
    obtain ⟨rfl, hvalid⟩ := Provider.config_of_setUp hsetUp
    exact Provider.exists_deadline (p := { p with catalog := catalog }) hvalid (hnone hf) c h.tokens
      now
  · refine ⟨d.tokens_dispatch files now s r hc, d.leavesAlone_contextSteps files now s r hsound hc,
      fun source b hresolved hprepared => ?_⟩
    exact d.held_contextSteps files now s r hc hresolved hprepared

/-- A host that bounds a context by five seconds. -/
def boundSteps : List (Nat × ContextStep) := [(0, .new), (1, .within 0 (5 * Clock.second))]

/-- A dispatch under that context whose script starts after half a minute: the run has the deadline
of the caller, the dispatch gives up then, and the caller's context is as before. -/
theorem bounded_run_giving_up :
    let h := Contexts.empty.run boundSteps
    let c : Context := ⟨0, some 5000000001⟩
    let s : Schedule := { Schedule.prompt with run := 30 * Clock.second }
    let files := probeFiles "reply.note = 1;" []
    let steps := probe.contextSteps files 2 s (probeRequest "null") h 1 c
    h.held[1]? = some c ∧
      (probe.runContext probeSchema c h.tokens 2).1.deadline = some 5000000001 ∧
      (∃ p, (Provider.setUp Config.standard default default default default).value.provider =
        .ok p ∧ ∃ ends ≤ 86400000000002,
          (p.dispatcher.runContext probeSchema c h.tokens 2).1.deadline = some ends) ∧
      steps = [(2, .child 1), (2, .within 2 (10 * Clock.second)), (5000000001, .cancel 3)] ∧
      h.LeavesAlone (h.run steps) := by
  intro h c s files steps
  have hc : h.held[1]? = some c := by decide
  let f : SchemaFile := ⟨"", none, probeSchema.outputs⟩
  obtain ⟨hdefault, -, -, -, hprovider, halone⟩ :=
    probe.bounded_run 2 f "probe" "look" none boundSteps hc
  refine ⟨hc, (hdefault (.inl rfl)).trans (by decide +kernel), ?_, by decide +kernel,
    (halone _ s _).2.1⟩
  have hsome : (Provider.setUp Config.standard default default default
      default).value.provider.toOption.isSome := by decide +kernel
  cases hsetUp : (Provider.setUp Config.standard default default default
      default).value.provider with
  | error e =>
    rw [hsetUp] at hsome
    cases hsome
  | ok p =>
    obtain hnone | hends := hprovider _ _ _ _ _ p p.catalog hsetUp (.inl rfl)
    · exact absurd hnone (by decide +kernel)
    · exact ⟨p, rfl, hends⟩

end Dispatcher

end ScriptedActions
