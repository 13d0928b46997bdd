import Mathlib.Data.List.Infix
import ScriptedActions.Proofs.Dispatch
import ScriptedActions.Proofs.Table

/-!
# The history of a dispatch

The states that a dispatch goes through, as its log tells them. Two sides move the state on, the
dispatcher and the thread of the script, and either may be late; a schedule says how their moves
interleave.

What one move does is said by `Moves`, with the moves that were tried, the events that tell of them
and the trace that is left. It composes, so a dispatch has done the moves of its parts. Which moves
a dispatch tries is `Attempts`: those of the dispatcher and those of the thread, in an order that
keeps the order of either side. All that is left then is to go through the few orders there are.
-/

set_option autoImplicit false

namespace ScriptedActions

/-! ## Moves -/

namespace DispatchState

/-- The states in the order in which a dispatch goes through them if nothing fails. -/
def path : List DispatchState := [pending, loaded, compiled, running, completed]

/-- Where a move leads: one that is late or not allowed leads nowhere. -/
def after (s next : DispatchState) : DispatchState :=
  if !s.isTerminal && s.allows next then next else s

/-- The moves that are made, of those that are tried. -/
def made : DispatchState → List DispatchState → List DispatchState
  | _, [] => []
  | s, next :: rest =>
    if !s.isTerminal && s.allows next then next :: made next rest else made s rest

/-- Whether all moves are allowed that are not late. -/
def areAllowed : DispatchState → List DispatchState → Bool
  | _, [] => true
  | s, next :: rest => (s.isTerminal || s.allows next) && areAllowed (s.after next) rest

theorem made_append (s : DispatchState) (as bs : List DispatchState) :
    s.made (as ++ bs) = s.made as ++ (as.foldl after s).made bs := by
  induction as generalizing s with
  | nil => rfl
  | cons a as ih =>
    rw [List.cons_append, List.foldl_cons, made, made, after]
    split
    · rw [ih, List.cons_append]
    · exact ih s

theorem areAllowed_append (s : DispatchState) (as bs : List DispatchState) :
    s.areAllowed (as ++ bs) = (s.areAllowed as && (as.foldl after s).areAllowed bs) := by
  induction as generalizing s with
  | nil => rfl
  | cons a as ih => rw [List.cons_append, areAllowed, areAllowed, ih, Bool.and_assoc,
      List.foldl_cons]

end DispatchState

namespace Event

/-- The state that an event says to have been entered. Scripts write to the log as well, but
never with a field of that name. -/
def entered? (e : Event) : Option DispatchState :=
  if e.message = "Dispatch state changed" then
    (e.fields.get? "state").bind fun text =>
      (DispatchState.aborted :: DispatchState.path).find? (·.text = text)
  else none

/-- Whether an event says that a move was refused. -/
def isRefusal (e : Event) : Bool :=
  e.level = .warn && e.message = "Illegal dispatch state transition"

/-- The report of a move tells where it leads. -/
theorem entered?_changed (level : Level) (fields : List (String × String)) (s : DispatchState) :
    entered? ⟨level, "Dispatch state changed", Table.ofList (fields ++ [("state", s.text)])⟩ =
      some s := by
  unfold entered?
  rw [if_pos rfl, Table.ofList_append, Table.get?_insert, if_pos rfl, Option.bind_some]
  cases s <;> decide

/-- Reports without that field tell of no move. -/
theorem entered?_eq_none {level : Level} {message : String} {fields : List (String × String)}
    (h : ∀ f ∈ fields, f.1 ≠ "state") :
    entered? ⟨level, message, Table.ofList fields⟩ = none := by
  unfold entered?
  split
  · rw [Table.get?_ofList_eq_none h]
    rfl
  · rfl

end Event

open DispatchState

/-- Moves were tried on a trace: what is left, and what the log says. -/
structure Moves (t : Trace) (moves : List DispatchState) (t' : Trace) (events : List Event) :
    Prop where
  trace : t' = { t with state := moves.foldl after t.state }
  entered : events.filterMap Event.entered? = t.state.made moves
  allowed : t.state.areAllowed moves → ∀ e ∈ events, ¬ e.isRefusal

namespace Moves

variable {t t' t'' : Trace} {as bs : List DispatchState} {es es' : List Event}

theorem trans (h : Moves t as t' es) (h' : Moves t' bs t'' es') :
    Moves t (as ++ bs) t'' (es ++ es') := by
  obtain ⟨rfl, hentered, hallowed⟩ := h
  obtain ⟨rfl, hentered', hallowed'⟩ := h'
  constructor
  · rw [List.foldl_append]
  · rw [List.filterMap_append, hentered, hentered', made_append]
  · intro hall e he
    rw [areAllowed_append, Bool.and_eq_true] at hall
    rcases List.mem_append.mp he with he | he
    · exact hallowed hall.1 e he
    · exact hallowed' hall.2 e he

theorem nil : Moves t [] t [] := ⟨rfl, rfl, nofun⟩

/-- Nothing is said at the end. -/
theorem pure (h : Moves t as t' es) : Moves t as t' (es ++ []) := (List.append_nil es).symm ▸ h

/-- Other reports change nothing. -/
theorem report (t : Trace) (level : Level) (message : String) {fields : List (String × String)}
    (hlevel : level ≠ .warn) (hfields : ∀ f ∈ fields, f.1 ≠ "state") :
    Moves t [] t (Logged.report level message fields).events := by
  constructor
  · rfl
  · simp only [Logged.report, List.filterMap_cons, Event.entered?_eq_none hfields,
      List.filterMap_nil, made]
  · intro _ e he
    cases List.mem_singleton.mp he
    simp [Event.isRefusal, hlevel]

theorem enter (t : Trace) (next : DispatchState) :
    Moves t [next] (t.enter next).value (t.enter next).events := by
  unfold Trace.enter
  cases hterminal : t.state.isTerminal with
  | true =>
    constructor
    · simp [after, hterminal]
    · simp [made, hterminal, Logged.report, Event.entered?]
    · intro _ e he
      simp [Logged.report] at he
      subst he
      simp [Event.isRefusal]
  | false =>
    cases hallows : t.state.allows next with
    | true =>
      constructor
      · simp [after, hterminal, hallows]
      · simp [made, hterminal, hallows, Logged.report, Event.entered?_changed]
      · intro _ e he
        simp [Logged.report] at he
        subst he
        simp [Event.isRefusal]
    | false =>
      constructor
      · simp [after, hterminal, hallows]
      · simp [made, hterminal, hallows, Logged.report, Event.entered?]
      · simp [areAllowed, hterminal, hallows]

end Moves

/-! ## Threads -/

/-- The move of a step, if it is one. -/
def ThreadStep.move? : ThreadStep → Option DispatchState
  | enters s => some s
  | prints _ => none

namespace ThreadRun

/-- The moves among steps. -/
def movesOf (steps : List (Nat × ThreadStep)) : List DispatchState :=
  steps.filterMap fun e => e.2.move?

/-- The moves of a thread after one moment and not after another one. -/
def movesWithin (run : ThreadRun) (after until? : Option Nat) : List DispatchState :=
  movesOf (run.steps.filter fun e => after.all (· < e.1) && until?.all (e.1 ≤ ·))

/-- The steps of a thread make no moves, if the script cannot be compiled, or two moves in order. -/
inductive Regular : ThreadRun → Prop
  | uncompiled (ends : Nat) (e : DispatchError) : Regular ⟨[], ends, .error e⟩
  | compiled {compiled begins : Nat} (h : compiled ≤ begins) (printed : List (Nat × Script.Printed))
    (ends : Nat) (outcome : Except DispatchError (Table Json)) :
    Regular ⟨[(compiled, .enters .compiled), (begins, .enters .running)] ++
      printed.map fun p => (p.1, .prints p.2), ends, outcome⟩

/-- What is printed is no move. -/
theorem movesOf_prints (p : Nat × ThreadStep → Bool) (moves : List (Nat × ThreadStep))
    (printed : List (Nat × Script.Printed)) :
    movesOf ((moves ++ printed.map fun p => (p.1, ThreadStep.prints p.2)).filter p) =
      movesOf (moves.filter p) := by
  have hnone : movesOf ((printed.map fun p => (p.1, ThreadStep.prints p.2)).filter p) = [] := by
    refine List.filterMap_eq_nil_iff.mpr fun e he => ?_
    obtain ⟨line, -, rfl⟩ := List.mem_map.mp (List.mem_filter.mp he).1
    rfl
  unfold movesOf at hnone ⊢
  rw [List.filter_append, List.filterMap_append, hnone, List.append_nil]

namespace Regular

variable {run : ThreadRun}

theorem movesWithin_all (h : run.Regular) :
    run.movesWithin none none = [] ∧ (∃ e, run.outcome = .error e) ∨
      run.movesWithin none none = [.compiled, .running] := by
  cases h with
  | uncompiled ends e => exact .inl ⟨rfl, e, rfl⟩
  | compiled h printed ends outcome =>
    right
    unfold movesWithin
    rw [movesOf_prints]
    rfl

/-- The moves up to a moment and those after it. -/
theorem movesWithin_split (h : run.Regular) {x : Nat} {until? : Option Nat}
    (hx : until?.all (x ≤ ·)) :
    run.movesWithin none (some x) ++ run.movesWithin (some x) until? =
      run.movesWithin none until? := by
  cases h with
  | uncompiled ends e => rfl
  | @compiled a b h printed ends outcome =>
    unfold movesWithin
    simp only [movesOf_prints, List.filter_cons, List.filter_nil, Option.all_none, Option.all_some,
      Bool.true_and]
    -- either move is made up to the moment or after it, the first not after the second
    cases until? with
    | none =>
      rcases Nat.lt_or_ge x a with hax | hax <;> rcases Nat.lt_or_ge x b with hbx | hbx <;>
        first
        | omega
        | simp [movesOf, ThreadStep.move?, hax, hbx, Nat.not_le_of_lt, Nat.not_lt_of_le]
    | some y =>
      have hxy : x ≤ y := by simpa using hx
      rcases Nat.lt_or_ge x a with hax | hax <;> rcases Nat.lt_or_ge y a with hay | hay <;>
        rcases Nat.lt_or_ge x b with hbx | hbx <;> rcases Nat.lt_or_ge y b with hby | hby <;>
        first
        | omega
        | simp [movesOf, ThreadStep.move?, hax, hay, hbx, hby, Nat.not_le_of_lt, Nat.not_lt_of_le]

theorem movesWithin_prefix (h : run.Regular) (until? : Option Nat) :
    run.movesWithin none until? <+: [.compiled, .running] := by
  have hall : run.movesWithin none none <+: [.compiled, .running] := by
    rcases h.movesWithin_all with ⟨hnone, -⟩ | hmoves
    · rw [hnone]
      exact List.nil_prefix
    · rw [hmoves]
  cases until? with
  | none => exact hall
  | some x =>
    have hsplit : run.movesWithin none (some x) ++ run.movesWithin (some x) none =
        run.movesWithin none none := h.movesWithin_split rfl
    rw [← hsplit] at hall
    exact (List.prefix_append _ _).trans hall

end Regular

end ThreadRun

namespace Dispatcher

open Script

theorem regular_thread (e : Engine) (modules : Path → Option String) (source : List UInt8)
    (b : Bindings) (stop : Option Nat) (now : Nat) (s : Schedule) :
    (thread e modules source b stop now s).Regular := by
  unfold thread
  cases e.compile source with
  | error f => exact .uncompiled _ _
  | ok script =>
    have hprinted : ∀ begins (lines : List Printed),
        (lines.map fun line => (begins + line.time, ThreadStep.prints line)) =
          (lines.map fun line => (begins + line.time, line)).map fun p => (p.1, .prints p.2) := by
      intro begins lines
      rw [List.map_map]
      rfl
    dsimp only
    rw [hprinted]
    exact .compiled (Nat.le_add_right _ _) _ _ _

/-! ## The moves of the parts of a dispatch -/

theorem moves_follow (t : Trace) (step : ThreadStep) :
    Moves t step.move?.toList (follow t step).value (follow t step).events := by
  cases step with
  | enters s => exact .enter t s
  | prints line =>
    unfold follow
    dsimp only
    split
    · exact .report t .debug line.text nofun (by simp)
    · exact .report t .info line.text nofun nofun

theorem moves_followAll (t : Trace) (steps : List (Nat × ThreadStep)) :
    Moves t (ThreadRun.movesOf steps) ((steps.map Prod.snd).foldlM follow t).value
      ((steps.map Prod.snd).foldlM follow t).events := by
  induction steps generalizing t with
  | nil => exact .nil
  | cons e rest ih =>
    have hmoves : ThreadRun.movesOf (e :: rest) = e.2.move?.toList ++ ThreadRun.movesOf rest := by
      unfold ThreadRun.movesOf
      rw [List.filterMap_cons]
      cases e.2.move? <;> rfl
    rw [hmoves]
    exact (moves_follow t e.2).trans (ih _)

theorem moves_followWithin (run : ThreadRun) (after until? : Option Nat) (t : Trace) :
    Moves t (run.movesWithin after until?) (followWithin run after until? t).value
      (followWithin run after until? t).events :=
  moves_followAll t _

theorem moves_fail (stage : DispatchState) (e : DispatchError) (t : Trace) :
    Moves t [.aborted] (fail stage e t).value.2 (fail stage e t).events :=
  (Moves.enter t .aborted).trans
    (.report _ .error e.message nofun (by simp [Trace.about]))

theorem moves_complete (data : Table Json) (t : Trace) :
    Moves t [.completed] (complete data t).value.2 (complete data t).events :=
  (Moves.enter t .completed).trans
    (.report _ .info "Scripted action completed" nofun (by simp [Trace.about]))

/-- Which moves a dispatch tries, by the status of its reply. The moves of the thread may be before
the end of a dispatch that is aborted, or behind it. -/
inductive Attempts : StatusCode → List DispatchState → Prop
  | unresolved : Attempts .aborted [.aborted]
  | aborted {early late : List DispatchState} : early ++ late <+: [.compiled, .running] →
    Attempts .aborted (.loaded :: (early ++ .aborted :: late))
  | completed : Attempts .ok [.loaded, .compiled, .running, .completed]

/-- The moves that are tried while the dispatcher waits for a thread: all of them and the end, or
those of the thread up to the moment at which the dispatch counts as aborted, that end, and the
others behind it. -/
def awaitedMoves (run : ThreadRun) (stop : Option Nat) (now : Nat) (s : Schedule) :
    List DispatchState :=
  match givesUpAt? run stop now s with
  | none =>
    match run.outcome with
    | .ok _ => run.movesWithin none none ++ [.completed]
    | .error _ => run.movesWithin none none ++ [.aborted]
  | some noticed =>
    run.movesWithin none (some (noticed + s.abort)) ++
      .aborted :: run.movesWithin (some (noticed + s.abort)) none

theorem moves_await {run : ThreadRun} (h : run.Regular) (stop : Option Nat) (now : Nat)
    (s : Schedule) (t : Trace) :
    Moves t (awaitedMoves run stop now s) (await run stop now s t).value.2
      (await run stop now s t).events := by
  unfold await awaitedMoves
  cases givesUpAt? run stop now s with
  | none =>
    have hfollow := moves_followWithin run none none t
    cases houtcome : run.outcome with
    | error e => exact hfollow.trans (moves_fail _ e _)
    | ok data => exact hfollow.trans (moves_complete data _)
  | some noticed =>
    -- the thread moves while the dispatcher waits, while it asks the thread to stop, and behind its
    -- reply
    have hearly := moves_followWithin run none (some noticed) t
    have hmeanwhile := moves_followWithin run (some noticed) (some (noticed + s.abort))
      (followWithin run none (some noticed) t).value
    have hfail := moves_fail (followWithin run none (some noticed) t).value.state
      (.timeout (noticed - now)) (followWithin run (some noticed) (some (noticed + s.abort))
        (followWithin run none (some noticed) t).value).value
    have hlate := moves_followWithin run (some (noticed + s.abort)) none
      (fail (followWithin run none (some noticed) t).value.state (.timeout (noticed - now))
        (followWithin run (some noticed) (some (noticed + s.abort))
          (followWithin run none (some noticed) t).value).value).value.2
    have hnoticed : (some (noticed + s.abort)).all (noticed ≤ ·) := by simp
    show Moves t (run.movesWithin none (some (noticed + s.abort)) ++
      ([.aborted] ++ run.movesWithin (some (noticed + s.abort)) none)) _ _
    rw [← h.movesWithin_split hnoticed, List.append_assoc]
    exact hearly.trans (hmeanwhile.trans (hfail.trans hlate.pure))

theorem attempts_await {run : ThreadRun} (h : run.Regular) (stop : Option Nat) (now : Nat)
    (s : Schedule) :
    Attempts (awaited run stop now s).status (.loaded :: awaitedMoves run stop now s) := by
  have hprefix := h.movesWithin_prefix none
  unfold awaited awaitedMoves
  cases givesUpAt? run stop now s with
  | none =>
    cases houtcome : run.outcome with
    | error e => exact .aborted (List.append_nil _ ▸ hprefix)
    | ok data =>
      rcases h.movesWithin_all with ⟨-, e, he⟩ | hall
      · cases houtcome.symm.trans he
      · dsimp only
        rw [hall]
        exact .completed
  | some noticed =>
    refine .aborted ?_
    rw [h.movesWithin_split rfl]
    exact hprefix

variable (d : Dispatcher) (files : Files) (c : Context) (ts : Tokens) (now : Nat) (s : Schedule)
  (r : Request)

/-- The moves that a dispatch tries. -/
def attempted : List DispatchState :=
  match (d.scripts.resolve files r.agent r.action).value, r.prepare d.catalog with
  | .error _, _ => [.aborted]
  | .ok _, .error _ => [.loaded, .aborted]
  | .ok source, .ok (schema, b) =>
    .loaded :: awaitedMoves
      (thread d.engine (moduleText files) source b (d.stopFor schema c ts now s) now s)
      (d.stopFor schema c ts now s) now s

theorem moves_resolve (t : Trace) :
    Moves t [] t (d.scripts.resolve files r.agent r.action).events := by
  unfold ScriptDirectory.resolve
  dsimp only
  cases Naming.check r.agent with
  | error e => exact .nil
  | ok u =>
    cases Naming.check r.action with
    | error e => exact .nil
    | ok u =>
      cases files.read (d.scripts.pathOf r.agent r.action) with
      | error e => exact .nil
      | ok bytes => exact .report t .trace "Read action script" nofun (by simp)

/-- A dispatch, or what is left of it, does some moves. -/
def Does (t : Trace) (moves : List DispatchState) (x : Logged Dispatched) : Prop :=
  Moves t moves x.value.trace x.events

theorem Does.quiet {α : Type} {t : Trace} {moves : List DispatchState} {x : Logged α}
    {f : α → Logged Dispatched} (hx : Moves t [] t x.events) (hf : Does t moves (f x.value)) :
    Does t moves (x >>= f) :=
  Moves.trans hx hf

theorem Does.move {α : Type} {t t' : Trace} {next : DispatchState} {moves : List DispatchState}
    {x : Logged α} {f : α → Logged Dispatched} (hx : Moves t [next] t' x.events)
    (hf : Does t' moves (f x.value)) : Does t (next :: moves) (x >>= f) :=
  Moves.trans hx hf

theorem Does.last {t : Trace} {as : List DispatchState} {x : Logged (Reply × Trace)}
    (hx : Moves t as x.value.2 x.events) (ts : Tokens) :
    Does t as (x >>= fun p => pure ⟨p.1, ts, p.2⟩) :=
  hx.pure

theorem does_dispatch :
    Does (.start r) (d.attempted files c ts now s r) (d.dispatch files c ts now s r) := by
  unfold dispatch attempted
  refine .quiet (d.moves_resolve files r _) ?_
  cases (d.scripts.resolve files r.agent r.action).value with
  | error e => exact .last (moves_fail _ e _) ts
  | ok source =>
    have hload := Moves.enter (.start r) .loaded
    cases r.prepare d.catalog with
    | error e => exact .move hload (.last (moves_fail _ e _) ts)
    | ok p =>
      obtain ⟨schema, b⟩ := p
      have hawait := moves_await
        (regular_thread d.engine (moduleText files) source b (d.stopFor schema c ts now s) now s)
        (d.stopFor schema c ts now s) now s ((Trace.start r).enter .loaded).value
      exact .move hload (.last hawait _)

theorem attempts_dispatch :
    Attempts (d.dispatch files c ts now s r).value.reply.status
      (d.attempted files c ts now s r) := by
  unfold attempted
  cases hresolved : (d.scripts.resolve files r.agent r.action).value with
  | error e =>
    rw [d.reply_of_unresolved files c ts now s r hresolved]
    exact .unresolved
  | ok source =>
    cases hprepared : r.prepare d.catalog with
    | error e =>
      have haborted : ([] : List DispatchState) ++ [] <+: [.compiled, .running] := List.nil_prefix
      rw [d.reply_of_unprepared files c ts now s r hresolved hprepared]
      exact .aborted haborted
    | ok p =>
      rw [d.reply_of_prepared files c ts now s r hresolved hprepared]
      exact attempts_await (regular_thread _ _ _ _ _ _ _) _ now s

/-- What is left of a dispatch that has tried moves before. -/
def Ends (t : Trace) (tried : List DispatchState) (x : Logged Dispatched) : Prop :=
  ∃ moves, Attempts x.value.reply.status (tried ++ moves) ∧ Moves t moves x.value.trace x.events

theorem ends_dispatch : Ends (.start r) [] (d.dispatch files c ts now s r) :=
  ⟨d.attempted files c ts now s r, d.attempts_dispatch files c ts now s r,
    d.does_dispatch files c ts now s r⟩

/-! ## Histories -/

/-- The states that the log of a dispatch tells of, from its begin on. -/
def history (events : List Event) : List DispatchState :=
  .pending :: events.filterMap Event.entered?

/-- The states come in their order from the first one on. A dispatch may be aborted early, and
then this is its last state. -/
def IsHistory (states : List DispatchState) : Prop :=
  states <+: path ∨
    ∃ ready, ready <+: [.pending, .loaded, .compiled, .running] ∧ states = ready ++ [.aborted]

/-- The orders in which the moves of a thread and the end of a dispatch can come. -/
theorem split_moves {early late : List DispatchState} (h : early ++ late <+: [.compiled, .running]) :
    (early, late) ∈ [([], []), ([], [.compiled]), ([], [.compiled, .running]), ([.compiled], []),
      ([.compiled], [.running]), ([.compiled, .running], [])] := by
  obtain ⟨rest, hrest⟩ := h
  match early, late with
  | [], [] => simp
  | [], [x] => simp_all
  | [], [x, y] => simp_all
  | [], x :: y :: z :: late => simp at hrest
  | [x], [] => simp_all
  | [x], [y] => simp_all
  | [x], y :: z :: late => simp at hrest
  | [x, y], [] => simp_all
  | [x, y], z :: late => simp at hrest
  | x :: y :: z :: early, late => simp at hrest

/-- What is not an end comes before an end. -/
theorem eq_nil_of_terminal {ready before after : List DispatchState} {last state : DispatchState}
    (hready : ∀ s ∈ ready, ¬ s.isTerminal) (h : before ++ state :: after <+: ready ++ [last])
    (hstate : state.isTerminal) : after = [] := by
  obtain ⟨rest, hrest⟩ := h
  rcases List.eq_nil_or_concat (after ++ rest) with hnil | ⟨init, x, hinit⟩
  · exact (List.append_eq_nil_iff.mp hnil).1
  · rw [List.append_assoc, List.cons_append, hinit] at hrest
    have hsplit : (before ++ state :: init) ++ [x] = ready ++ [last] := by simpa using hrest
    obtain ⟨rfl, -⟩ := List.append_inj' hsplit rfl
    exact absurd hstate (hready state (by simp))

theorem IsHistory.eq_nil_of_terminal {states before after : List DispatchState}
    {state : DispatchState} (h : IsHistory states) (hstates : states = before ++ state :: after)
    (hstate : state.isTerminal) : after = [] := by
  rcases h with hpath | ⟨ready, hready, haborted⟩
  · have hall : ∀ s ∈ [pending, loaded, compiled, running], ¬ s.isTerminal := by decide
    rw [hstates] at hpath
    exact Dispatcher.eq_nil_of_terminal hall hpath hstate
  · have hall : ∀ s ∈ [pending, loaded, compiled, running], ¬ s.isTerminal := by decide
    have hprefix : before ++ state :: after <+: ready ++ [.aborted] := by
      rw [← hstates, haborted]
    exact Dispatcher.eq_nil_of_terminal (fun s hs => hall s (hready.subset hs)) hprefix hstate

namespace Attempts

/-- A dispatch that is aborted makes the moves of its thread up to then, and its own; the others come
late. -/
theorem made_aborted {early late : List DispatchState} (h : early ++ late <+: [.compiled, .running]) :
    pending.areAllowed (.loaded :: (early ++ .aborted :: late)) ∧
      pending.made (.loaded :: (early ++ .aborted :: late)) = .loaded :: (early ++ [.aborted]) ∧
      (DispatchState.loaded :: (early ++ .aborted :: late)).foldl after .pending = .aborted := by
  have hcases := split_moves h
  simp only [List.mem_cons, Prod.mk.injEq, List.not_mem_nil, or_false] at hcases
  rcases hcases with ⟨rfl, rfl⟩ | ⟨rfl, rfl⟩ | ⟨rfl, rfl⟩ | ⟨rfl, rfl⟩ | ⟨rfl, rfl⟩ | ⟨rfl, rfl⟩ <;>
    decide

variable {status : StatusCode} {moves : List DispatchState}

/-- The moves that are made of those that a dispatch tries, the last one of them, and that none is
refused. -/
theorem made_cases (h : Attempts status moves) :
    pending.areAllowed moves ∧
    ((status = .ok ∧ pending.made moves = [.loaded, .compiled, .running, .completed] ∧
        moves.foldl after .pending = .completed) ∨
      ∃ ready, ready <+: [.loaded, .compiled, .running] ∧ status = .aborted ∧
        pending.made moves = ready ++ [.aborted] ∧ moves.foldl after .pending = .aborted) := by
  cases h with
  | unresolved => exact ⟨by decide, .inr ⟨[], by decide, rfl, by decide, by decide⟩⟩
  | completed => exact ⟨by decide, .inl ⟨rfl, by decide, by decide⟩⟩
  | @aborted early late hsplit =>
    obtain ⟨hallowed, hmade, hlast⟩ := made_aborted hsplit
    have hearly : early <+: [.compiled, .running] := (List.prefix_append early late).trans hsplit
    exact ⟨hallowed, .inr ⟨.loaded :: early, List.cons_prefix_cons.mpr ⟨rfl, hearly⟩, rfl, hmade,
      hlast⟩⟩

end Attempts

variable (d : Dispatcher) (files : Files) (c : Context) (ts : Tokens) (now : Nat) (s : Schedule)
  (r : Request)

/-- **What the log of a dispatch says of its states**, for every way in which the moves of the
dispatcher and of the thread interleave: they come in order, possibly up to an early end; an end is
never left; the last one is the state of the trace; the dispatch was completed if the reply is OK,
and aborted otherwise; and no move was refused. -/
theorem history_of_dispatch :
    IsHistory (history (d.dispatch files c ts now s r).events) ∧
    (∀ before state after,
      history (d.dispatch files c ts now s r).events = before ++ state :: after →
        state.isTerminal → after = []) ∧
    (history (d.dispatch files c ts now s r).events).getLast? =
      some (d.dispatch files c ts now s r).value.trace.state ∧
    (.completed ∈ history (d.dispatch files c ts now s r).events ↔
      (d.dispatch files c ts now s r).value.reply.status = .ok) ∧
    (.aborted ∈ history (d.dispatch files c ts now s r).events ↔
      (d.dispatch files c ts now s r).value.reply.status = .aborted) ∧
    ∀ e ∈ (d.dispatch files c ts now s r).events, ¬ e.isRefusal := by
  obtain ⟨moves, hattempts, htrace, hentered, hallowed⟩ := d.ends_dispatch files c ts now s r
  rw [List.nil_append] at hattempts
  generalize d.dispatch files c ts now s r = result at *
  obtain ⟨hlegal, hmade⟩ := hattempts.made_cases
  have hstates : history result.events = .pending :: pending.made moves :=
    congrArg (pending :: ·) hentered
  have hstate : result.value.trace.state = moves.foldl after .pending := congrArg (·.state) htrace
  generalize history result.events = states at *
  -- that an end is never left follows from the shape of a history
  suffices h : IsHistory states ∧ states.getLast? = some result.value.trace.state ∧
      (.completed ∈ states ↔ result.value.reply.status = .ok) ∧
      (.aborted ∈ states ↔ result.value.reply.status = .aborted) by
    obtain ⟨hhistory, hlast, hcompleted, haborted⟩ := h
    exact ⟨hhistory, fun before state after h => hhistory.eq_nil_of_terminal h, hlast, hcompleted,
      haborted, hallowed hlegal⟩
  rcases hmade with ⟨hok, hmade, hlast⟩ | ⟨ready, hready, haborted, hmade, hlast⟩
  · have hpath : states = path := by rw [hstates, hmade]; rfl
    have hstatus : result.value.reply.status = .ok := hok
    rw [hpath, hstate, hlast, hstatus]
    exact ⟨.inl (List.prefix_refl _), by decide, by decide, by decide⟩
  · have hstatus : result.value.reply.status = .aborted := haborted
    have hnone : .completed ∉ ready := fun hmem =>
      absurd (hready.subset hmem) (by decide)
    rw [hmade] at hstates
    rw [hstates, hstate, hlast, hstatus]
    refine ⟨.inr ⟨.pending :: ready, List.cons_prefix_cons.mpr ⟨rfl, hready⟩, rfl⟩, ?_, ?_, ?_⟩
    · rw [← List.cons_append, List.getLast?_concat]
    · simp [hnone]
    · simp

end Dispatcher

end ScriptedActions
