import ScriptedActions.Proofs.Aborts

/-!
# Which stage an abort reports

A dispatch that is aborted reports the stage in which it failed, and its log tells from which state
it was aborted. Both are the same state as long as one side alone moves the dispatch on. A
dispatcher that gives up waiting reads the state first and ends the dispatch later, and the thread
of the script is not held up in between: **a move of the thread that falls between the two makes the
report wrong** (`Dispatcher.late_report`).

That is the only way (`Dispatcher.report_of_abort`). So the report is right of every dispatch whose
thread is waited for, and of every one that is ended at the moment at which its state is read.
-/

set_option autoImplicit false

namespace ScriptedActions

open DispatchState

/-- The stage that an event reports a dispatch to have failed in. -/
def Event.failedIn? (e : Event) : Option String :=
  if e.level = .error then e.fields.get? "stage" else none

namespace Dispatcher

/-- The stages that a log reports dispatches to have failed in. -/
def reports (events : List Event) : List String := events.filterMap Event.failedIn?

theorem reports_append (es es' : List Event) : reports (es ++ es') = reports es ++ reports es' :=
  List.filterMap_append

/-! ## The parts of a dispatch -/

theorem reports_report {level : Level} (h : level ≠ .error) (message : String)
    (fields : List (String × String)) :
    reports (Logged.report level message fields).events = [] := by
  show List.filterMap Event.failedIn? [_] = []
  rw [List.filterMap_cons, Event.failedIn?, if_neg h]
  rfl

theorem reports_enter (t : Trace) (next : DispatchState) : reports (t.enter next).events = [] := by
  unfold Trace.enter
  split
  · exact reports_report (by decide) _ _
  · split
    · exact reports_report (by decide) _ _
    · exact reports_report (by decide) _ _

theorem reports_follow (t : Trace) (step : ThreadStep) : reports (follow t step).events = [] := by
  cases step with
  | enters s => exact reports_enter t s
  | prints line =>
    unfold follow
    dsimp only
    split
    · exact reports_report (by decide) _ _
    · exact reports_report (by decide) _ _

theorem reports_followAll (t : Trace) (steps : List ThreadStep) :
    reports (steps.foldlM follow t).events = [] := by
  induction steps generalizing t with
  | nil => rfl
  | cons step rest ih =>
    rw [List.foldlM_cons, Logged.events_bind, reports_append, reports_follow, ih]
    rfl

theorem reports_followWithin (run : ThreadRun) (after until? : Option Nat) (t : Trace) :
    reports (followWithin run after until? t).events = [] :=
  reports_followAll t _

theorem reports_complete (data : Table Json) (t : Trace) :
    reports (complete data t).events = [] := by
  unfold complete
  rw [Logged.events_bind, reports_append, reports_enter, Logged.events_bind, reports_append,
    reports_report (by decide)]
  rfl

theorem reports_fail (stage : DispatchState) (e : DispatchError) (t : Trace) :
    reports (fail stage e t).events = [stage.text] := by
  unfold fail
  rw [Logged.events_bind, reports_append, reports_enter, List.nil_append]
  generalize (t.enter .aborted).value = t
  show List.filterMap Event.failedIn? [⟨.error, e.message,
    Table.ofList ((t.about ++ [("stage", stage.text)]) ++ [("error", e.tag)])⟩] = [stage.text]
  rw [List.filterMap_cons, Event.failedIn?, if_pos rfl, Table.ofList_append, Table.get?_insert,
    if_neg (by decide), Table.ofList_append, Table.get?_insert, if_pos rfl]
  rfl

theorem reports_resolve (scripts : ScriptDirectory) (files : Files) (agent action : String) :
    reports (scripts.resolve files agent action).events = [] := by
  unfold ScriptDirectory.resolve
  dsimp only
  cases Naming.check agent with
  | error e => rfl
  | ok u =>
    cases Naming.check action with
    | error e => rfl
    | ok u =>
      cases files.read (scripts.pathOf agent action) with
      | error e => rfl
      | ok bytes => exact reports_report (by decide) _ _

/-- The stage that is reported of a thread, if one is: the state after all of its moves, or after
those that it has made when the dispatcher gives up. -/
def reported? (run : ThreadRun) (givenUp? : Option Nat) : Option DispatchState :=
  match givenUp?, run.outcome with
  | none, .ok _ => none
  | none, .error _ => some (run.reached none)
  | some noticed, _ => some (run.reached (some noticed))

end Dispatcher

/-! ## The two states of a thread -/

namespace ThreadRun.Regular

variable {run : ThreadRun}

/-- What a thread reaches is where its moves lead. -/
theorem foldl_after (h : run.Regular) (until? : Option Nat) :
    (run.movesWithin none until?).foldl after .loaded = run.reached until? := by
  unfold ThreadRun.reached
  have hprefix := h.movesWithin_prefix until?
  generalize run.movesWithin none until? = moves at hprefix
  rw [← List.mem_inits] at hprefix
  simp only [List.inits, List.map_cons, List.map_nil, List.mem_cons, List.not_mem_nil, or_false]
    at hprefix
  rcases hprefix with rfl | rfl | rfl <;> rfl

/-- **Two moments have the same state exactly when the thread makes no move between them.** -/
theorem reached_eq_iff (h : run.Regular) {x y : Nat} (hxy : x ≤ y) :
    run.reached (some x) = run.reached (some y) ↔ run.movesWithin (some x) (some y) = [] := by
  have hsplit : run.movesWithin none (some x) ++ run.movesWithin (some x) (some y) =
      run.movesWithin none (some y) := h.movesWithin_split (by simpa using hxy)
  have hprefix := h.movesWithin_prefix (some y)
  unfold ThreadRun.reached
  rw [← hsplit] at hprefix ⊢
  generalize run.movesWithin none (some x) = early at hprefix ⊢
  generalize run.movesWithin (some x) (some y) = between at hprefix ⊢
  have hcases := Dispatcher.split_moves hprefix
  simp only [List.mem_cons, Prod.mk.injEq, List.not_mem_nil, or_false] at hcases
  rcases hcases with ⟨rfl, rfl⟩ | ⟨rfl, rfl⟩ | ⟨rfl, rfl⟩ | ⟨rfl, rfl⟩ | ⟨rfl, rfl⟩ | ⟨rfl, rfl⟩ <;>
    decide

end ThreadRun.Regular

namespace Dispatcher

/-- What a trace is after moves of a thread that it follows from the moment on at which its dispatch
is loaded. -/
theorem state_followWithin {run : ThreadRun} (h : run.Regular) (until? : Option Nat) {t : Trace}
    (ht : t.state = .loaded) :
    (followWithin run none until? t).value.state = run.reached until? := by
  rw [(moves_followWithin run none until? t).trace, ← h.foldl_after until?, ← ht]

theorem reports_await {run : ThreadRun} (h : run.Regular) (stop : Option Nat) (now : Nat)
    (s : Schedule) {t : Trace} (ht : t.state = .loaded) :
    reports (await run stop now s t).events =
      ((reported? run (givesUpAt? run stop now s)).map DispatchState.text).toList := by
  unfold await reported?
  cases givesUpAt? run stop now s with
  | none =>
    rw [Logged.events_bind, reports_append, reports_followWithin, List.nil_append]
    cases run.outcome with
    | ok data => exact reports_complete data _
    | error e =>
      show reports (fail _ e _).events = _
      rw [reports_fail, state_followWithin h none ht]
      rfl
  | some noticed =>
    simp only [Logged.events_bind, Logged.events_pure, reports_append, reports_followWithin,
      reports_fail, state_followWithin h _ ht, List.nil_append]
    rfl

/-! ## Dispatches -/

section

variable (d : Dispatcher) (files : Files) (c : Context) (ts : Tokens) (now : Nat) (s : Schedule)
  (r : Request)

/-- The moves that the thread of the script makes after the state of a dispatch is read that the
dispatcher gives up, and before the dispatch counts as aborted. -/
def movesMeanwhile : List DispatchState :=
  match d.thread? files c ts now s r, d.gaveUpAt? files c ts now s r with
  | some run, some noticed => run.movesWithin (some noticed) (some (noticed + s.abort))
  | _, _ => []

variable {d files c ts now s r}

theorem reports_of_unresolved {e : DispatchError}
    (h : (d.scripts.resolve files r.agent r.action).value = .error e) :
    reports (d.dispatch files c ts now s r).events = [DispatchState.pending.text] := by
  unfold dispatch
  simp only [Logged.events_bind, reports_append, reports_resolve, h, reports_fail,
    Logged.events_pure]
  rfl

theorem reports_of_unprepared {source : List UInt8} {e : DispatchError}
    (h : (d.scripts.resolve files r.agent r.action).value = .ok source)
    (h' : r.prepare d.catalog = .error e) :
    reports (d.dispatch files c ts now s r).events = [DispatchState.loaded.text] := by
  unfold dispatch
  simp only [Logged.events_bind, reports_append, reports_resolve, reports_enter, h, h',
    reports_fail, Logged.events_pure]
  rfl

theorem reports_of_thread {run : ThreadRun} (h : d.thread? files c ts now s r = some run) :
    reports (d.dispatch files c ts now s r).events =
      ((reported? run (d.gaveUpAt? files c ts now s r)).map DispatchState.text).toList := by
  unfold thread? at h
  split at h
  case h_2 => cases h
  case h_1 source schema b hresolved hprepared =>
    cases h
    unfold dispatch
    simp only [Logged.events_bind, reports_append, reports_resolve, reports_enter, hresolved,
      hprepared, gaveUpAt?, Logged.events_pure, List.nil_append]
    exact (List.append_nil _).trans (reports_await (regular_thread _ _ _ _ _ _ _) _ now s rfl)

/-- A dispatch that fails reports one stage, which is the right one or is followed by a move of the
thread. -/
theorem Fails.reports {e : DispatchError} {stage : DispatchState}
    (h : d.Fails files c ts now s r e stage) :
    ∃ named : DispatchState,
      Dispatcher.reports (d.dispatch files c ts now s r).events = [named.text] ∧
        (named = stage ↔ d.movesMeanwhile files c ts now s r = []) := by
  cases h with
  | unresolved h =>
    refine ⟨.pending, reports_of_unresolved h, iff_of_true rfl ?_⟩
    simp only [movesMeanwhile, thread?, h]
  | unprepared h h' =>
    refine ⟨.loaded, reports_of_unprepared h h', iff_of_true rfl ?_⟩
    simp only [movesMeanwhile, thread?, h, h']
  | @thread run e h hwaits houtcome =>
    refine ⟨run.reached none, ?_, iff_of_true rfl ?_⟩
    · rw [reports_of_thread h, hwaits]
      simp only [reported?, houtcome]
      rfl
    · simp only [movesMeanwhile, h, hwaits]
  | @givenUp run noticed h hgives =>
    refine ⟨run.reached (some noticed), ?_, ?_⟩
    · rw [reports_of_thread h, hgives]
      rfl
    · have hmeanwhile : d.movesMeanwhile files c ts now s r =
          run.movesWithin (some noticed) (some (noticed + s.abort)) := by
        simp only [movesMeanwhile, h, hgives]
      rw [hmeanwhile]
      exact (regular_of_thread? h).reached_eq_iff (Nat.le_add_right _ _)

/-- **What a dispatch that is aborted reports.** It reports one stage, and that is the state from
which it was aborted exactly when the thread makes no move in between. -/
theorem report_of_abort (h : (d.dispatch files c ts now s r).value.reply.status = .aborted) :
    ∃ (named stage : DispatchState) (ready : List DispatchState),
      reports (d.dispatch files c ts now s r).events = [named.text] ∧
      history (d.dispatch files c ts now s r).events = ready ++ [stage, .aborted] ∧
      (named = stage ↔ d.movesMeanwhile files c ts now s r = []) := by
  rcases d.completes_or_fails files c ts now s r with
    ⟨hok, -⟩ | ⟨e, stage, hfails, -, ready, -, hhistory⟩
  · cases hok.symm.trans h
  · obtain ⟨named, hreports, hnamed⟩ := hfails.reports
    exact ⟨named, stage, ready, hreports, hhistory, hnamed⟩

end

/-- A thread that has compiled its script while the dispatcher gives up makes the report late: it
names the state before that. -/
theorem late_report :
    let x := probe.dispatch (probeFiles "reply.seen = 1;" [])
      ((Context.ofToken 0).withDeadline 1000) probeTokens 0 takingTime (probeRequest "null")
    reports x.events = [DispatchState.loaded.text] ∧
      history x.events = [.pending, .loaded, .compiled, .aborted] := by
  intro x
  exact ⟨by decide +kernel, by decide +kernel⟩

end Dispatcher

end ScriptedActions
