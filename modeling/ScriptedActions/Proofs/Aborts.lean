import ScriptedActions.Proofs.Deadlines
import ScriptedActions.Proofs.History
import ScriptedActions.Proofs.Integers

/-!
# Where dispatches are aborted

Every error arises at one place, and the dispatch is aborted from the state that it has reached
there. `Dispatcher.Fails` says at which place an error arises and which state that is; a dispatch is
completed or fails in this sense, and `Dispatcher.state_of_abort` reads off the kind of the error
from which state it was aborted.

Two kinds of errors arise at more than one place. A value that cannot be bound is found while the
values are prepared, or by the engine once the script is compiled. The end of the context is found
by the script that runs, or by the dispatcher, which does not know how far the thread of the script
has come.
-/

set_option autoImplicit false

namespace ScriptedActions

open Script DispatchState

/-! ## Errors of scripts -/

namespace Script.Engine

theorem error_of_compile {e : Engine} {source : List UInt8} {err : ScriptError}
    (h : e.compile source = .error err) : ∃ diagnostic, err = .compile diagnostic := by
  unfold compile at h
  split at h
  · cases h
    exact ⟨_, rfl⟩
  · split at h
    · cases h
      exact ⟨_, rfl⟩
    · cases h

theorem error_of_extract {script : CompiledScript} {err : ScriptError}
    (h : extract script = .error err) : ∃ reason, err = .binding "reply" reason := by
  unfold extract at h
  split at h
  · cases h
  · cases h
    exact ⟨_, rfl⟩

end Script.Engine

namespace Script.ScriptError

/-- Errors that end a run. -/
inductive EndsRun : ScriptError → Prop
  | undeclaredOutput (field : String) : EndsRun (undeclaredOutput field)
  | runtime (report : String) : EndsRun (runtime report)
  | interrupted (elapsed : Nat) : EndsRun (interrupted elapsed)

theorem endsRun_classify (m : Machine) (f : Fault) : (m.classify f).EndsRun := by
  unfold Machine.classify
  split
  · exact .interrupted _
  · split
    · exact .undeclaredOutput _
    · exact .runtime _
  · exact .runtime _

end Script.ScriptError

namespace DispatchError

/-- How the wording of an error begins, by its kind. -/
def opening : DispatchError → String
  | scriptUnavailable _ _ => "could not read action script "
  | schemaLookupFailure _ _ => "no schema declared for action "
  | binding _ _ => "could not set "
  | compile _ => "could not compile action: "
  | schemaViolation _ => "undeclared output item "
  | runtime _ => "could not run: "
  | timeout _ => "action timed out after "

theorem message_eq_opening (e : DispatchError) : ∃ rest, e.message = e.opening ++ rest := by
  cases e <;> unfold message opening <;> simp only [String.append_assoc] <;> exact ⟨_, rfl⟩

/-- Twelve characters tell the kinds of errors apart. -/
theorem tag_of_opening {e e' : DispatchError}
    (h : e.opening.toList.take 12 = e'.opening.toList.take 12) : e.tag = e'.tag := by
  cases e <;> cases e' <;> simp [opening] at h <;> rfl

/-- **Errors of one wording are of one kind.** -/
theorem tag_of_message {e e' : DispatchError} (h : e.message = e'.message) : e.tag = e'.tag := by
  have htake : ∀ e : DispatchError, e.message.toList.take 12 = e.opening.toList.take 12 := by
    intro e
    obtain ⟨rest, hrest⟩ := e.message_eq_opening
    have hlong : 12 ≤ e.opening.toList.length := by cases e <;> simp [opening]
    rw [hrest, String.toList_append, List.take_append_of_le_length hlong]
  refine tag_of_opening ?_
  rw [← htake, ← htake, h]

end DispatchError

/-! ## The places of errors -/

namespace ThreadRun

/-- The state to which a thread has brought its dispatch up to a moment. -/
def reached (run : ThreadRun) (until? : Option Nat) : DispatchState :=
  (run.movesWithin none until?).getLastD .loaded

end ThreadRun

namespace Dispatcher

variable (d : Dispatcher) (files : Files) (c : Context) (ts : Tokens) (now : Nat) (s : Schedule)
  (r : Request)

/-- The thread of the script, if the dispatch gets that far. -/
def thread? : Option ThreadRun :=
  match (d.scripts.resolve files r.agent r.action).value, r.prepare d.catalog with
  | .ok source, .ok (schema, b) =>
    some (thread d.engine (moduleText files) source b (d.stopFor schema c ts now s) now s)
  | _, _ => none

/-- When the dispatcher gives up waiting for the thread, if there is one and it does. -/
def gaveUpAt? : Option Nat :=
  match (d.scripts.resolve files r.agent r.action).value, r.prepare d.catalog with
  | .ok source, .ok (schema, b) =>
    givesUpAt? (thread d.engine (moduleText files) source b (d.stopFor schema c ts now s) now s)
      (d.stopFor schema c ts now s) now s
  | _, _ => none

/-- A dispatch fails with an error, and it is then in a state. -/
inductive Fails : DispatchError → DispatchState → Prop
  /-- The script is not read. -/
  | unresolved {e : DispatchError}
    (h : (d.scripts.resolve files r.agent r.action).value = .error e) : Fails e .pending
  /-- The values for the script are not prepared. -/
  | unprepared {source : List UInt8} {e : DispatchError}
    (h : (d.scripts.resolve files r.agent r.action).value = .ok source)
    (h' : r.prepare d.catalog = .error e) : Fails e .loaded
  /-- The thread of the script fails. -/
  | thread {run : ThreadRun} {e : DispatchError} (h : d.thread? files c ts now s r = some run)
    (hwaits : d.gaveUpAt? files c ts now s r = none) (houtcome : run.outcome = .error e) :
    Fails e (run.reached none)
  /-- The dispatcher gives up waiting for the thread. -/
  | givenUp {run : ThreadRun} {noticed : Nat} (h : d.thread? files c ts now s r = some run)
    (hgives : d.gaveUpAt? files c ts now s r = some noticed) :
    Fails (.timeout (noticed - now)) (run.reached (some (noticed + s.abort)))

/-- A list that follows a state ends with its own last state or with that one. -/
theorem exists_getLastD (first : DispatchState) (states : List DispatchState) :
    ∃ ready, first :: states = ready ++ [states.getLastD first] := by
  rcases List.eq_nil_or_concat states with rfl | ⟨init, last, rfl⟩
  · exact ⟨[], rfl⟩
  · exact ⟨first :: init, by simp⟩

/-- The history of a dispatch that is aborted when its thread has made some of its moves. -/
theorem history_aborted {early late : List DispatchState}
    (h : early ++ late <+: [.compiled, .running]) :
    ∃ ready, ready ++ [early.getLastD .loaded] <+: path ∧
      pending :: pending.made (.loaded :: (early ++ .aborted :: late)) =
        ready ++ [early.getLastD .loaded, .aborted] := by
  obtain ⟨-, hmade, -⟩ := Attempts.made_aborted h
  obtain ⟨ready, hready⟩ := exists_getLastD .loaded early
  refine ⟨.pending :: ready, ?_, ?_⟩
  · have hearly : early <+: [compiled, running, completed] :=
      (List.prefix_append early late).trans (h.trans (by decide))
    rw [List.cons_append, ← hready]
    simpa [path] using hearly
  · rw [hmade, ← List.cons_append, hready]
    simp

/-- A dispatch whose thread is waited for is completed or aborted; the thread decides, or the
dispatcher gives up. -/
theorem history_awaited {run : ThreadRun} (h : run.Regular) (stop : Option Nat) :
    ((awaited run stop now s).status = .ok ∧
      pending :: pending.made (.loaded :: awaitedMoves run stop now s) = path) ∨
    ∃ e stage, (givesUpAt? run stop now s = none ∧ run.outcome = .error e ∧
          stage = run.reached none ∨
        ∃ noticed, givesUpAt? run stop now s = some noticed ∧ e = .timeout (noticed - now) ∧
          stage = run.reached (some (noticed + s.abort))) ∧
      awaited run stop now s = .aborted e.message ∧
      ∃ ready, ready ++ [stage] <+: path ∧
        pending :: pending.made (.loaded :: awaitedMoves run stop now s) =
          ready ++ [stage, .aborted] := by
  have hall : run.movesWithin none none ++ [] <+: [compiled, running] := by
    rw [List.append_nil]
    exact h.movesWithin_prefix none
  unfold awaited awaitedMoves
  cases givesUpAt? run stop now s with
  | none =>
    cases houtcome : run.outcome with
    | error e => exact .inr ⟨e, _, .inl ⟨rfl, rfl, rfl⟩, rfl, history_aborted hall⟩
    | ok data =>
      rcases h.movesWithin_all with ⟨-, e, he⟩ | hmoves
      · cases houtcome.symm.trans he
      · dsimp only
        rw [hmoves]
        exact .inl ⟨rfl, by decide⟩
  | some noticed =>
    rw [List.append_nil, ← h.movesWithin_split (x := noticed + s.abort) rfl] at hall
    exact .inr ⟨_, _, .inr ⟨noticed, rfl, rfl, rfl⟩, rfl, history_aborted hall⟩

/-- **A dispatch is completed, or it fails and is aborted from the state that it is in then.** -/
theorem completes_or_fails :
    ((d.dispatch files c ts now s r).value.reply.status = .ok ∧
      history (d.dispatch files c ts now s r).events = path) ∨
    ∃ e stage, d.Fails files c ts now s r e stage ∧
      (d.dispatch files c ts now s r).value.reply = .aborted e.message ∧
      ∃ ready, ready ++ [stage] <+: path ∧
        history (d.dispatch files c ts now s r).events = ready ++ [stage, .aborted] := by
  obtain ⟨-, hentered, -⟩ := d.does_dispatch files c ts now s r
  have hhistory : history (d.dispatch files c ts now s r).events =
      .pending :: pending.made (d.attempted files c ts now s r) :=
    congrArg (pending :: ·) hentered
  rw [hhistory]
  cases hresolved : (d.scripts.resolve files r.agent r.action).value with
  | error e =>
    have hmoves : d.attempted files c ts now s r = [.aborted] := by
      simp only [attempted, hresolved]
    rw [hmoves]
    exact .inr ⟨e, .pending, .unresolved hresolved,
      d.reply_of_unresolved files c ts now s r hresolved, [], by decide, by decide⟩
  | ok source =>
    cases hprepared : r.prepare d.catalog with
    | error e =>
      have hmoves : d.attempted files c ts now s r = [.loaded, .aborted] := by
        simp only [attempted, hresolved, hprepared]
      rw [hmoves]
      exact .inr ⟨e, .loaded, .unprepared hresolved hprepared,
        d.reply_of_unprepared files c ts now s r hresolved hprepared, [.pending], by decide,
        by decide⟩
    | ok p =>
      obtain ⟨schema, b⟩ := p
      have hthread : d.thread? files c ts now s r = some (thread d.engine (moduleText files) source
          b (d.stopFor schema c ts now s) now s) := by
        simp only [thread?, hresolved, hprepared]
      have hgives : d.gaveUpAt? files c ts now s r = givesUpAt? (thread d.engine (moduleText files)
          source b (d.stopFor schema c ts now s) now s) (d.stopFor schema c ts now s) now s := by
        simp only [gaveUpAt?, hresolved, hprepared]
      rw [d.reply_of_prepared files c ts now s r hresolved hprepared, attempted, hresolved,
        hprepared]
      rcases history_awaited now s (regular_thread d.engine (moduleText files) source b
        (d.stopFor schema c ts now s) now s) (d.stopFor schema c ts now s) with hok |
          ⟨e, stage, ⟨hwaits, houtcome, rfl⟩ | ⟨noticed, hgaveUp, rfl, rfl⟩, hhistory⟩
      · exact .inl hok
      · exact .inr ⟨e, _, .thread hthread (hgives.trans hwaits) houtcome, hhistory⟩
      · exact .inr ⟨_, _, .givenUp hthread (hgives.trans hgaveUp), hhistory⟩

theorem reply_of_aborted (h : (d.dispatch files c ts now s r).value.reply.status = .aborted) :
    (d.dispatch files c ts now s r).value.reply =
      .aborted (d.dispatch files c ts now s r).value.reply.message := by
  rcases d.completes_or_fails files c ts now s r with ⟨hstatus, -⟩ | ⟨e, stage, -, hreply, -⟩
  · cases hstatus.symm.trans h
  · rw [hreply]
    rfl

/-! ## The kinds of errors -/

variable {d files c ts now s r}

theorem error_of_prepare {catalog : Catalog} {e : DispatchError}
    (h : r.prepare catalog = .error e) :
    (∃ name reason, e = .binding name reason) ∨
      (catalog.lookup r.agent r.action = none ∧ e = .schemaLookupFailure r.agent r.action) := by
  unfold Request.prepare Request.values at h
  cases hrpc : r.toJson with
  | error f =>
    simp only [hrpc, Except.error.injEq] at h
    exact .inl ⟨_, _, h.symm⟩
  | ok rpc =>
    cases hinputs : r.payload with
    | error f =>
      simp only [hrpc, hinputs, Except.error.injEq] at h
      exact .inl ⟨_, _, h.symm⟩
    | ok inputs =>
      cases hlookup : catalog.lookup r.agent r.action with
      | none =>
        simp only [hrpc, hinputs, hlookup, Except.error.injEq] at h
        exact .inr ⟨rfl, h.symm⟩
      | some schema => simp only [hrpc, hinputs, hlookup, reduceCtorEq] at h

theorem reached_of_compiled {engine : Engine} {source : List UInt8} {script : CompiledScript}
    (h : engine.compile source = .ok script) (modules : Path → Option String) (b : Bindings)
    (stop : Option Nat) (now : Nat) (s : Schedule) :
    (thread engine modules source b stop now s).reached none = .running := by
  unfold ThreadRun.reached
  rcases (regular_thread engine modules source b stop now s).movesWithin_all with ⟨hnone, -⟩ | hall
  · simp only [thread, h] at hnone
    unfold ThreadRun.movesWithin ThreadRun.movesOf at hnone
    simp [ThreadStep.move?] at hnone
  · rw [hall]
    rfl

/-- A script that was run fails by what ended the run, or because it replaced its reply object. -/
theorem error_of_settled {result : EStateM.Result Stop Machine Unit} {e : DispatchError}
    (h : settled result = .error e) :
    (∃ name reason, e = .binding name reason) ∨
      ∃ err : ScriptError, err.EndsRun ∧ e = .ofScript err := by
  unfold settled Engine.verdict at h
  split at h
  case h_1 err hverdict =>
    cases h
    split at hverdict
    · cases hverdict
      exact .inr ⟨_, ScriptError.endsRun_classify _ _, rfl⟩
    all_goals cases hverdict
  case h_2 =>
    split at h
    · rename_i err hextract
      obtain ⟨reason, rfl⟩ := Engine.error_of_extract hextract
      cases h
      exact .inl ⟨_, _, rfl⟩
    · cases h

/-- A thread fails because the script cannot be compiled, and then it makes no move; or it makes all
of its moves and fails in the run or behind it. -/
theorem error_of_thread {engine : Engine} {modules : Path → Option String} {source : List UInt8}
    {b : Bindings} {stop : Option Nat} {e : DispatchError}
    (h : (thread engine modules source b stop now s).outcome = .error e) :
    (∃ diagnostic, e = .compile diagnostic ∧
      (thread engine modules source b stop now s).reached none = .loaded) ∨
    (((∃ name reason, e = .binding name reason) ∨ ∃ err : ScriptError, err.EndsRun ∧
        e = .ofScript err) ∧
      (thread engine modules source b stop now s).reached none = .running) := by
  rw [outcome_thread] at h
  cases hcompiled : engine.compile source with
  | error err =>
    obtain ⟨diagnostic, rfl⟩ := Engine.error_of_compile hcompiled
    simp only [hcompiled, Except.error.injEq] at h
    refine .inl ⟨diagnostic, h.symm, ?_⟩
    simp only [thread, hcompiled]
    rfl
  | ok script =>
    refine .inr ⟨?_, reached_of_compiled hcompiled modules b stop now s⟩
    simp only [hcompiled] at h
    cases hrefusal : b.refusal? with
    | some refused =>
      obtain ⟨-, name, -, -, n, -, -, -, -, rfl⟩ := Bindings.refusal?_eq_some hrefusal
      simp only [hrefusal, Except.error.injEq] at h
      exact .inl ⟨_, _, h.symm⟩
    | none =>
      simp only [hrefusal] at h
      exact error_of_settled h

variable (d files c ts now s r)

variable {d files c ts now s r}

theorem regular_of_thread? {run : ThreadRun} (h : d.thread? files c ts now s r = some run) :
    run.Regular := by
  unfold thread? at h
  split at h
  · cases h
    exact regular_thread _ _ _ _ _ _ _
  · cases h

/-- A thread is only asked for when the values for its script are there. -/
theorem prepare_of_thread? {run : ThreadRun} (h : d.thread? files c ts now s r = some run) :
    ∃ source schema b, r.prepare d.catalog = .ok (schema, b) ∧
      run = thread d.engine (moduleText files) source b (d.stopFor schema c ts now s) now s := by
  unfold thread? at h
  split at h
  case h_1 source schema b _ hprepared =>
    cases h
    exact ⟨source, schema, b, hprepared, rfl⟩
  case h_2 => cases h

variable (d files c ts now s r)

/-- A thread that needs its time to compile the script and to run it. -/
def takingTime : Schedule :=
  { Schedule.prompt with start := 500, compile := 600, run := 200, abort := 150 }

end Dispatcher

end ScriptedActions
