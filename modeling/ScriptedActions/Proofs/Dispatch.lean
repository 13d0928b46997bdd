import ScriptedActions.Dispatch.Dispatcher
import ScriptedActions.Proofs.Ledger

/-!
# What a dispatch comes to

`Dispatcher.dispatch` does its work with a log, a trace and a thread. The reply depends on neither
log nor trace, and on the thread only by when it is done and with what. The equations that say so
are `Dispatcher.reply_of_unresolved` and the two after it, one for each stage that can decide, and
whatever is proved about replies starts from them.

`Dispatcher.scriptRun?` is the run of the script, for a dispatch that gets that far.
-/

set_option autoImplicit false

namespace ScriptedActions

open Script

namespace Script.Engine

/-- What the end of a run means for the caller of the script. -/
def verdict : EStateM.Result Stop Machine Unit → Except ScriptError Unit
  | .error (.fault f) m => .error (m.classify f)
  | .ok _ _ | .error (.jump _) _ => .ok ()

variable (e : Engine) (script : CompiledScript) (b : Bindings) (stopsAt : Option Nat)
  (moduleText : Path → Option String)

theorem run_of_refusal {refused : ScriptError} (h : b.refusal? = some refused) :
    e.run script b stopsAt moduleText = ⟨.error refused, script, [], 0⟩ := by
  unfold run
  rw [h]

theorem run_of_accepted (h : b.refusal? = none) :
    e.run script b stopsAt moduleText =
      let result := e.execute script b stopsAt moduleText
      let m := leftBy result
      ⟨verdict result, { script with reply := m.reply? }, m.printed.toList, m.time⟩ := by
  unfold run
  rw [h]
  dsimp only
  cases e.execute script b stopsAt moduleText with
  | ok u m => rfl
  | error stop m => cases stop <;> rfl

end Script.Engine

/-- What the values for a script are made of. -/
theorem Request.prepare_eq_ok {r : Request} {c : Catalog} {schema : ActionSchema} {b : Bindings}
    (h : r.prepare c = .ok (schema, b)) :
    r.toJson = .ok b.rpc ∧ r.payload = .ok b.request ∧
      c.lookup r.agent r.action = some schema ∧ b.reply = schema.reply := by
  unfold prepare values at h
  cases hrpc : r.toJson with
  | error e => simp only [hrpc, reduceCtorEq] at h
  | ok rpc =>
    cases hinputs : r.payload with
    | error e => simp only [hrpc, hinputs, reduceCtorEq] at h
    | ok inputs =>
      cases hlookup : c.lookup r.agent r.action with
      | none => simp only [hrpc, hinputs, hlookup, reduceCtorEq] at h
      | some schema' =>
        simp only [hrpc, hinputs, hlookup, Except.ok.injEq, Prod.mk.injEq] at h
        obtain ⟨rfl, rfl⟩ := h
        exact ⟨rfl, rfl, rfl, rfl⟩

namespace Dispatcher

/-! ## The reply -/

/-- The reply that says what a dispatch came to. -/
def replyFor : Except DispatchError (Table Json) → Reply
  | .ok data => .ok data
  | .error e => .aborted e.message

/-- The reply of a dispatcher that waits for a thread. -/
def awaited (run : ThreadRun) (stop : Option Nat) (now : Nat) (s : Schedule) : Reply :=
  match givesUpAt? run stop now s with
  | some noticed => replyFor (.error (.timeout (noticed - now)))
  | none => replyFor run.outcome

theorem reply_fail (stage : DispatchState) (e : DispatchError) (t : Trace) :
    (fail stage e t).value.1 = .aborted e.message := rfl

theorem reply_await (run : ThreadRun) (stop : Option Nat) (now : Nat) (s : Schedule) (t : Trace) :
    (await run stop now s t).value.1 = awaited run stop now s := by
  unfold await awaited
  cases givesUpAt? run stop now s with
  | some noticed => rfl
  | none =>
    rw [Logged.value_bind]
    cases run.outcome <;> rfl

/-- A reply that is OK has the outputs of a thread that was waited for. -/
theorem awaited_ok {run : ThreadRun} {stop : Option Nat} {now : Nat} {s : Schedule}
    (h : (awaited run stop now s).status = .ok) :
    ∃ data, run.outcome = .ok data ∧ awaited run stop now s = .ok data := by
  unfold awaited at h ⊢
  cases hgives : givesUpAt? run stop now s with
  | some noticed => rw [hgives] at h; cases h
  | none =>
    rw [hgives] at h
    cases hrun : run.outcome with
    | error e => rw [hrun] at h; cases h
    | ok data => exact ⟨data, rfl, rfl⟩

theorem exists_awaited (run : ThreadRun) (stop : Option Nat) (now : Nat) (s : Schedule) :
    ∃ outcome, awaited run stop now s = replyFor outcome := by
  unfold awaited
  split
  case h_1 noticed _ => exact ⟨.error (.timeout (noticed - now)), rfl⟩
  case h_2 => exact ⟨run.outcome, rfl⟩

/-- A thread decides the reply, unless the dispatcher notices the end of the context before the end
of the thread. -/
theorem awaited_or_timeout (run : ThreadRun) (stop : Option Nat) (now : Nat) (s : Schedule) :
    awaited run stop now s = replyFor run.outcome ∨
      ∃ ends, stop = some ends ∧ max now ends + s.notice < run.ends + s.finish ∧
        awaited run stop now s =
          .aborted (DispatchError.timeout (max now ends + s.notice - now)).message := by
  unfold awaited
  cases stop with
  | none => exact .inl rfl
  | some ends =>
    by_cases hlate : max now ends + s.notice < run.ends + s.finish
    · right
      simp only [givesUpAt?, if_pos hlate]
      exact ⟨ends, rfl, hlate, rfl⟩
    · left
      simp only [givesUpAt?, if_neg hlate]

/-- What went wrong in a thread is then the message of the reply. -/
theorem awaited_error {run : ThreadRun} {stop : Option Nat} {now : Nat} {s : Schedule}
    {e : DispatchError} (h : run.outcome = .error e) :
    awaited run stop now s = .aborted e.message ∨
      ∃ ends, stop = some ends ∧ max now ends + s.notice < run.ends + s.finish ∧
        awaited run stop now s =
          .aborted (DispatchError.timeout (max now ends + s.notice - now)).message := by
  refine (awaited_or_timeout run stop now s).imp_left fun hdecides => ?_
  rw [hdecides, h]
  rfl

/-- A thread that is noticed to be done before the context ends decides the reply. -/
theorem awaited_inTime {run : ThreadRun} {stop : Option Nat} {now : Nat} {s : Schedule}
    (h : ∀ ends, stop = some ends → run.ends + s.finish < ends) :
    awaited run stop now s = replyFor run.outcome := by
  rcases awaited_or_timeout run stop now s with hdecides | ⟨ends, hstop, hlate, -⟩
  · exact hdecides
  · have hends := h ends hstop
    omega

/-- When the run of a script is told to stop: when its context is cancelled or its deadline
passes. -/
def stopFor (d : Dispatcher) (schema : ActionSchema) (c : Context) (ts : Tokens) (now : Nat)
    (s : Schedule) : Option Nat :=
  stopOf (d.runContext schema c ts now).1 (d.runContext schema c ts now).2 now s

variable (d : Dispatcher) (files : Files) (c : Context) (ts : Tokens) (now : Nat) (s : Schedule)
  (r : Request)

/-- A script that cannot be read decides the reply. -/
theorem reply_of_unresolved {e : DispatchError}
    (h : (d.scripts.resolve files r.agent r.action).value = .error e) :
    (d.dispatch files c ts now s r).value.reply = .aborted e.message := by
  unfold dispatch
  simp only [Logged.value_bind, h, Logged.value_pure, reply_fail]

/-- Next, values that cannot be bound decide it, and an action without a schema. -/
theorem reply_of_unprepared {source : List UInt8} {e : DispatchError}
    (h : (d.scripts.resolve files r.agent r.action).value = .ok source)
    (h' : r.prepare d.catalog = .error e) :
    (d.dispatch files c ts now s r).value.reply = .aborted e.message := by
  unfold dispatch
  simp only [Logged.value_bind, h, h', Logged.value_pure, reply_fail]

/-- Then it is up to the thread of the script. -/
theorem reply_of_prepared {source : List UInt8} {schema : ActionSchema} {b : Bindings}
    (h : (d.scripts.resolve files r.agent r.action).value = .ok source)
    (h' : r.prepare d.catalog = .ok (schema, b)) :
    (d.dispatch files c ts now s r).value.reply =
      awaited (thread d.engine (moduleText files) source b (d.stopFor schema c ts now s) now s)
        (d.stopFor schema c ts now s) now s := by
  unfold dispatch
  simp only [Logged.value_bind, h, h', Logged.value_pure, stopFor, reply_await]

/-- A dispatch comes to data or to an error, and the reply tells nothing else. -/
theorem exists_replyFor :
    ∃ outcome, (d.dispatch files c ts now s r).value.reply = replyFor outcome := by
  cases hresolved : (d.scripts.resolve files r.agent r.action).value with
  | error e => exact ⟨.error e, d.reply_of_unresolved files c ts now s r hresolved⟩
  | ok source =>
    cases hprepared : r.prepare d.catalog with
    | error e => exact ⟨.error e, d.reply_of_unprepared files c ts now s r hresolved hprepared⟩
    | ok p =>
      rw [d.reply_of_prepared files c ts now s r hresolved hprepared]
      exact exists_awaited _ _ now s

/-- The run of a script by a dispatch that gets that far: the schema of the action, what the script
was given, and how the run ended. -/
def scriptRun? : Option (ActionSchema × Bindings × EStateM.Result Stop Machine Unit) :=
  match (d.scripts.resolve files r.agent r.action).value, r.prepare d.catalog with
  | .ok source, .ok (schema, b) =>
    match d.engine.compile source, b.refusal? with
    | .ok script, none =>
      some (schema, b, d.engine.execute script b
        ((d.stopFor schema c ts now s).map (· - (now + s.start + s.compile + s.run)))
        (moduleText files))
    | _, _ => none
  | _, _ => none

/-- What a run leaves for the reply: the outputs, or why there are none. -/
def settled (result : EStateM.Result Stop Machine Unit) : Except DispatchError (Table Json) :=
  match Engine.verdict result with
  | .error e => .error (.ofScript e)
  | .ok () =>
    match Engine.extract ⟨default, (leftBy result).reply?⟩ with
    | .error e => .error (.ofScript e)
    | .ok reply => .ok reply.data

/-- What the thread of a script ends with. -/
theorem outcome_thread (e : Engine) (modules : Path → Option String) (source : List UInt8)
    (b : Bindings) (stop : Option Nat) :
    (thread e modules source b stop now s).outcome =
      match e.compile source with
      | .error e => .error (.ofScript e)
      | .ok script =>
        match b.refusal? with
        | some e => .error (.ofScript e)
        | none => settled
            (e.execute script b (stop.map (· - (now + s.start + s.compile + s.run))) modules) := by
  unfold thread
  cases e.compile source with
  | error e => rfl
  | ok script =>
    dsimp only
    cases hb : b.refusal? with
    | some e => rw [Engine.run_of_refusal _ _ _ _ _ hb]
    | none =>
      rw [Engine.run_of_accepted _ _ _ _ _ hb]
      rfl

/-- The thread of a script that runs is done when the run is. -/
theorem ends_thread {e : Engine} {source : List UInt8} {b : Bindings} {script : CompiledScript}
    (modules : Path → Option String) (stop : Option Nat) (h : e.compile source = .ok script)
    (h' : b.refusal? = none) :
    (thread e modules source b stop now s).ends = now + s.start + s.compile + s.run +
      (leftBy (e.execute script b (stop.map (· - (now + s.start + s.compile + s.run)))
        modules)).time := by
  unfold thread
  simp only [h, Engine.run_of_accepted _ _ _ _ _ h']

/-- The stages before a run. -/
theorem stages_of_scriptRun {schema : ActionSchema} {b : Bindings}
    {result : EStateM.Result Stop Machine Unit}
    (h : d.scriptRun? files c ts now s r = some (schema, b, result)) :
    ∃ source script, (d.scripts.resolve files r.agent r.action).value = .ok source ∧
      r.prepare d.catalog = .ok (schema, b) ∧ d.engine.compile source = .ok script ∧
      b.refusal? = none ∧
      result = d.engine.execute script b
        ((d.stopFor schema c ts now s).map (· - (now + s.start + s.compile + s.run)))
        (moduleText files) := by
  unfold scriptRun? at h
  cases hresolved : (d.scripts.resolve files r.agent r.action).value with
  | error e => simp only [hresolved, reduceCtorEq] at h
  | ok source =>
    cases hprepared : r.prepare d.catalog with
    | error e => simp only [hresolved, hprepared, reduceCtorEq] at h
    | ok p =>
      obtain ⟨schema', b'⟩ := p
      cases hcompiled : d.engine.compile source with
      | error e => simp only [hresolved, hprepared, hcompiled, reduceCtorEq] at h
      | ok script =>
        cases hrefusal : b'.refusal? with
        | some e => simp only [hresolved, hprepared, hcompiled, hrefusal, reduceCtorEq] at h
        | none =>
          simp only [hresolved, hprepared, hcompiled, hrefusal, Option.some.injEq,
            Prod.mk.injEq] at h
          obtain ⟨rfl, rfl, rfl⟩ := h
          exact ⟨source, script, rfl, rfl, hcompiled, hrefusal, rfl⟩

/-- The script got the outputs that the schema of its action declares. -/
theorem schema_of_scriptRun {schema : ActionSchema} {b : Bindings}
    {result : EStateM.Result Stop Machine Unit}
    (h : d.scriptRun? files c ts now s r = some (schema, b, result)) :
    d.catalog.lookup r.agent r.action = some schema ∧ b.reply = schema.reply := by
  obtain ⟨source, script, -, hprepared, -, -, -⟩ := d.stages_of_scriptRun files c ts now s r h
  exact (Request.prepare_eq_ok hprepared).2.2

/-- The reply is up to the run, unless the dispatcher gives up waiting for it. -/
theorem reply_of_scriptRun {schema : ActionSchema} {b : Bindings}
    {result : EStateM.Result Stop Machine Unit}
    (h : d.scriptRun? files c ts now s r = some (schema, b, result)) :
    ∃ run : ThreadRun, run.outcome = settled result ∧
      run.ends = now + s.start + s.compile + s.run + (leftBy result).time ∧
      (d.dispatch files c ts now s r).value.reply =
        awaited run (d.stopFor schema c ts now s) now s := by
  obtain ⟨source, script, hresolved, hprepared, hcompiled, hrefusal, rfl⟩ :=
    d.stages_of_scriptRun files c ts now s r h
  refine ⟨_, ?_, ?_, d.reply_of_prepared files c ts now s r hresolved hprepared⟩
  · rw [outcome_thread]
    simp only [hcompiled, hrefusal]
  · exact ends_thread now s _ _ hcompiled hrefusal

/-- **A dispatch whose reply is OK ran the script to its end**, and the data of the reply is what
the run left for it. -/
theorem scriptRun_of_ok (h : (d.dispatch files c ts now s r).value.reply.status = .ok) :
    ∃ schema b result data,
      d.scriptRun? files c ts now s r = some (schema, b, result) ∧
      settled result = .ok data ∧ (d.dispatch files c ts now s r).value.reply = .ok data := by
  cases hresolved : (d.scripts.resolve files r.agent r.action).value with
  | error e => rw [d.reply_of_unresolved files c ts now s r hresolved] at h; cases h
  | ok source =>
    cases hprepared : r.prepare d.catalog with
    | error e => rw [d.reply_of_unprepared files c ts now s r hresolved hprepared] at h; cases h
    | ok p =>
      obtain ⟨schema, b⟩ := p
      rw [d.reply_of_prepared files c ts now s r hresolved hprepared] at h ⊢
      obtain ⟨data, hdata, hreply⟩ := awaited_ok h
      rw [outcome_thread] at hdata
      cases hcompiled : d.engine.compile source with
      | error e => simp only [hcompiled, reduceCtorEq] at hdata
      | ok script =>
        simp only [hcompiled] at hdata
        cases hrefusal : b.refusal? with
        | some e => simp only [hrefusal, reduceCtorEq] at hdata
        | none =>
          simp only [hrefusal] at hdata
          refine ⟨schema, b, _, data, ?_, hdata, hreply⟩
          simp only [scriptRun?, hresolved, hprepared, hcompiled, hrefusal]

/-- The outputs that a run leaves are those of the reply object that it leaves. -/
theorem reply_of_settled {result : EStateM.Result Stop Machine Unit} {data : Table Json}
    (h : settled result = .ok data) :
    ∃ reply, (leftBy result).reply? = some reply ∧ reply.data = data := by
  unfold settled at h
  split at h
  · cases h
  · cases hreply : (leftBy result).reply? with
    | none => rw [hreply] at h; cases h
    | some reply =>
      rw [hreply] at h
      cases h
      exact ⟨reply, rfl, rfl⟩

/-! ## A dispatcher to look at

One agent with one action and two outputs, for statements about fixed scripts. -/

/-- A file with a text. -/
def textFile (text : String) : FileTree := .file (text.toList.map fun c => UInt8.ofNat c.toNat)

/-- The schema of the action `look`. -/
def probeSchema : ActionSchema :=
  { ActionSchema.new "probe" "look" with
    outputs := [("note", ⟨"string", .string "none", "", ""⟩),
      ("seen", ⟨"integer", .int 0, "", ""⟩)] }

/-- A dispatcher that knows the action `look` of the agent `probe`. -/
def probe : Dispatcher :=
  ⟨⟨Script.Limits.standard⟩, ⟨⟨"scripts"⟩, Engine.extension⟩, Catalog.empty.insert probeSchema,
    standardTimeout⟩

/-- The files of that action: its script, and some files beside the directory of scripts. -/
def probeFiles (script : String) (others : List (String × String)) : Files :=
  ⟨.dir (Table.ofList (("scripts", .dir [("probe", .dir [("look.rhai", textFile script)])]) ::
    others.map fun f => (f.1, textFile f.2))), []⟩

/-- A request for that action. -/
def probeRequest (payload : String) : Request :=
  { (default : Request) with agent := "probe", action := "look", data := payload }

/-- The tokens of a caller who has cancelled nothing. -/
def probeTokens : Tokens := ⟨#[⟨none, false⟩]⟩

end Dispatcher

end ScriptedActions
