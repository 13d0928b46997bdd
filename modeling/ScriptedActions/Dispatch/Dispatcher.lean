import ScriptedActions.Dispatch.Context
import ScriptedActions.Dispatch.Preparation
import ScriptedActions.Dispatch.ScriptDirectory
import ScriptedActions.Dispatch.Trace
import ScriptedActions.Protocol.Reply

/-!
# The dispatcher

A dispatch reads the script of an action, prepares its values, compiles it and runs it, and turns
what comes of it into a reply. The first of these stages that fails decides: the reply is then an
aborted one without outputs, whose message is the wording of the error.

The script is compiled and run by a thread of its own. The dispatcher waits for the thread and
for the end of the context, whichever it notices first; a thread that is not waited for any more
goes on for a while, and its moves come late. When things happen is a matter of a `Schedule`, so
a dispatch is a function, and what holds for all schedules holds however its two sides interleave.
-/

set_option autoImplicit false

namespace ScriptedActions

/-- When things happen in a dispatch; all but the first are durations, in nanoseconds. -/
structure Schedule where
  /-- When the caller cancels the request, if that happens meanwhile. -/
  cancelledAt : Option Nat
  /-- Until the thread of the script starts. -/
  start : Nat
  /-- Until the script is compiled. -/
  compile : Nat
  /-- Until a compiled script runs. -/
  run : Nat
  /-- Until the dispatcher notices that the thread is done. -/
  finish : Nat
  /-- Until the dispatcher notices that the context has ended. -/
  notice : Nat
  /-- From the moment at which the dispatcher gives up until the dispatch counts as aborted. -/
  abort : Nat
deriving DecidableEq, Repr, Inhabited

/-- A schedule in which all is done at once, but for the start of the thread. -/
def Schedule.prompt : Schedule := ⟨none, 50000, 0, 0, 0, 0, 0⟩

/-- What the thread of a script does to be seen. -/
inductive ThreadStep where
  | enters (s : DispatchState)
  | prints (line : Script.Printed)
deriving Repr

/-- What becomes of the thread of a script. -/
structure ThreadRun where
  /-- Its steps and when they happen, in their order. -/
  steps : List (Nat × ThreadStep)
  /-- When it is done. -/
  ends : Nat
  outcome : Except DispatchError (Table Json)

/-- What runs scripts for requests. -/
structure Dispatcher where
  engine : Script.Engine
  scripts : ScriptDirectory
  catalog : Catalog
  /-- How many nanoseconds an action may take whose schema does not say. -/
  defaultTimeout : Nat
deriving Inhabited

/-- What came of a dispatch. -/
structure Dispatched where
  reply : Reply
  /-- The tokens of all contexts. -/
  tokens : Tokens
  trace : Trace

namespace Dispatcher

/-- How many nanoseconds an action may take if nothing is configured. -/
def standardTimeout : Nat := 10 * Clock.second

/-- The text of a module that a script uses. -/
def moduleText (files : Files) (p : Path) : Option String := (files.readText p).toOption

/-- What the thread of a script does if it is asked for at `now` and the context ends at `stop`;
`modules` finds the texts of the modules that the script uses. -/
def thread (e : Script.Engine) (modules : Path → Option String) (source : List UInt8)
    (b : Script.Bindings) (stop : Option Nat) (now : Nat) (s : Schedule) : ThreadRun :=
  let compiled := now + s.start + s.compile
  match e.compile source with
  | .error e => ⟨[], compiled, .error (.ofScript e)⟩
  | .ok script =>
    let begins := compiled + s.run
    let r := e.run script b (stop.map (· - begins)) modules
    let outcome : Except DispatchError (Table Json) :=
      match r.outcome with
      | .error e => .error (.ofScript e)
      | .ok () =>
        match Script.Engine.extract r.script with
        | .error e => .error (.ofScript e)
        | .ok reply => .ok reply.data
    ⟨[(compiled, .enters .compiled), (begins, .enters .running)] ++
        r.printed.map fun line => (begins + line.time, .prints line),
      begins + r.elapsed, outcome⟩

/-- Makes a step of a thread. -/
def follow (t : Trace) : ThreadStep → Logged Trace
  | .enters s => t.enter s
  | .prints line => do
    if line.forDebugging then
      Logged.report .debug line.text [("source", line.source), ("position", line.place.text)]
    else Logged.report .info line.text []
    pure t

/-- Makes the steps of a thread that happen after one moment and not after another one. -/
def followWithin (run : ThreadRun) (after : Option Nat) (until? : Option Nat) (t : Trace) :
    Logged Trace :=
  ((run.steps.filter fun e => after.all (· < e.1) && until?.all (e.1 ≤ ·)).map
    Prod.snd).foldlM follow t

/-- Ends a dispatch that failed in a stage. -/
def fail (stage : DispatchState) (e : DispatchError) (t : Trace) : Logged (Reply × Trace) := do
  let t ← t.enter .aborted
  Logged.report .error e.message (t.about ++ [("stage", stage.text), ("error", e.tag)])
  pure (.aborted e.message, t)

/-- Ends a dispatch that was successful. -/
def complete (data : Table Json) (t : Trace) : Logged (Reply × Trace) := do
  let t ← t.enter .completed
  Logged.report .info "Scripted action completed" t.about
  pure (.ok data, t)

/-- When the context of a run ends: when it is cancelled or its deadline passes. -/
def stopOf (c : Context) (ts : Tokens) (now : Nat) (s : Schedule) : Option Nat :=
  match c.stopsAt ts now, s.cancelledAt with
  | some a, some b => some (min a b)
  | some a, none => some a
  | none, b => b

/-- The moment at which the dispatcher gives up waiting for a thread, if it does. -/
def givesUpAt? (run : ThreadRun) (stop : Option Nat) (now : Nat) (s : Schedule) : Option Nat :=
  match stop with
  | none => none
  | some ends =>
    let noticed := max now ends + s.notice
    if noticed < run.ends + s.finish then some noticed else none

/-- How many nanoseconds an action may take. -/
def timeoutOf (d : Dispatcher) (schema : ActionSchema) : Nat :=
  (schema.timeout.map (· * Clock.second)).getD d.defaultTimeout

/-- The context of a run: below that of the caller, and bounded by the timeout of the action. -/
def runContext (d : Dispatcher) (schema : ActionSchema) (c : Context) (ts : Tokens) (now : Nat) :
    Context × Tokens :=
  let (child, ts) := c.child ts
  (child.within now (d.timeoutOf schema), ts)

/-- Runs a script and waits for it. -/
def await (run : ThreadRun) (stop : Option Nat) (now : Nat) (s : Schedule) (t : Trace) :
    Logged (Reply × Trace) := do
  match givesUpAt? run stop now s with
  | none => do
    let t ← followWithin run none none t
    match run.outcome with
    | .ok data => complete data t
    | .error e => fail t.state e t
  | some noticed => do
    let t ← followWithin run none (some noticed) t
    let stage := t.state
    let t ← followWithin run (some noticed) (some (noticed + s.abort)) t
    let (reply, t) ← fail stage (.timeout (noticed - now)) t
    let t ← followWithin run (some (noticed + s.abort)) none t
    pure (reply, t)

/-- Dispatches a request at a moment. -/
def dispatch (d : Dispatcher) (files : Files) (c : Context) (ts : Tokens) (now : Nat)
    (s : Schedule) (r : Request) : Logged Dispatched := do
  let t := Trace.start r
  match ← d.scripts.resolve files r.agent r.action with
  | .error e => do
    let (reply, t) ← fail t.state e t
    pure ⟨reply, ts, t⟩
  | .ok source => do
    let t ← t.enter .loaded
    match r.prepare d.catalog with
    | .error e => do
      let (reply, t) ← fail t.state e t
      pure ⟨reply, ts, t⟩
    | .ok (schema, b) => do
      let (runs, ts) := d.runContext schema c ts now
      let stop := stopOf runs ts now s
      let run := thread d.engine (moduleText files) source b stop now s
      let (reply, t) ← await run stop now s t
      let ts := if (givesUpAt? run stop now s).isSome then ts.cancel runs.token else ts
      pure ⟨reply, ts, t⟩

end Dispatcher

end ScriptedActions
