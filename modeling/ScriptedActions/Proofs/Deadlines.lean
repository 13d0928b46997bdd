import ScriptedActions.Proofs.Dispatch

/-!
# Runs and their deadlines

A run is told to stop by the check that every operation makes, and by nothing else. So a run with
a deadline is the run without one, up to the first check that is too late; and if there is such a
check, then the run without a deadline takes at least until then. Computations of which this is
true are `Eval.Timely`, and all computations of scripts are.

What follows for a dispatch is that nobody but the dispatch itself decides its reply if it is done
before its context ends: `Dispatcher.reply_of_undisturbed` gives the reply as a function of the
schema of the action, what was read for its script, the texts of the modules, and the request.
-/

set_option autoImplicit false

namespace ScriptedActions

namespace Script

/-! ## Timely computations -/

/-- The machine with another moment to stop at. -/
def Machine.within (m : Machine) (t : Option Nat) : Machine := { m with stopsAt := t }

/-- The same end of a computation, on a machine with another moment to stop at. -/
def stoppingAt {α : Type} (t : Option Nat) :
    EStateM.Result Stop Machine α → EStateM.Result Stop Machine α
  | .ok a m => .ok a (m.within t)
  | .error e m => .error e (m.within t)

/-- A machine after some time: it may have been told to stop meanwhile. -/
structure Machine.Later (m n : Machine) : Prop where
  time : m.time ≤ n.time
  halts : m.halts.size ≤ n.halts.size
  stopsAt : n.stopsAt = m.stopsAt

theorem Machine.Later.refl (m : Machine) : m.Later m := ⟨Nat.le_refl _, Nat.le_refl _, rfl⟩

theorem Machine.Later.trans {a b c : Machine} (h : a.Later b) (h' : b.Later c) : a.Later c :=
  ⟨Nat.le_trans h.time h'.time, Nat.le_trans h.halts h'.halts, h'.stopsAt.trans h.stopsAt⟩

variable {α β : Type}

/-- A deadline makes no difference to a computation, or the computation is told to stop and would
last until the deadline without one. -/
def Eval.Notices (x : Eval α) (s : Surroundings) (m : Machine) (t : Nat) : Prop :=
  x.run s (m.within (some t)) = stoppingAt (some t) (x.run s m) ∨
    m.halts.size < (leftBy (x.run s (m.within (some t)))).halts.size ∧
      t ≤ (leftBy (x.run s m)).time

/-- A computation that takes notice of deadlines by its checks only. -/
structure Eval.Timely (x : Eval α) : Prop where
  later : ∀ (s : Surroundings) (m : Machine), m.Later (leftBy (x.run s m))
  notices : ∀ s m t, m.stopsAt = none → x.Notices s m t

namespace Eval.Timely

theorem unrecorded {x : Eval α} (hx : x.Unrecorded) : x.Timely := by
  constructor
  · intro s m
    obtain ⟨a, n, hr, hmn, -⟩ := hx.ends s m
    rw [hr]
    exact ⟨hmn.time, Nat.le_of_eq (congrArg (·.halts.size) hmn.record.symm),
      congrArg (·.stopsAt) hmn.record⟩
  · intro s m t hm
    obtain ⟨a, n, hr, -, ht⟩ := hx.ends s m
    left
    rw [hr]
    exact ht (some t)

theorem quiet {x : Eval α} (hx : x.Quiet) : x.Timely := unrecorded hx.toUnrecorded

/-- How a timely computation ends may be looked at and changed, as long as this takes nothing back
and does the same whatever the deadline is. -/
theorem through {x : Eval α} {y : Eval β} (hx : x.Timely)
    (hlater : ∀ s m, (leftBy (x.run s m)).Later (leftBy (y.run s m)))
    (hsame : ∀ s m t, x.run s (m.within t) = stoppingAt t (x.run s m) →
      y.run s (m.within t) = stoppingAt t (y.run s m)) : y.Timely := by
  constructor
  · exact fun s m => (hx.later s m).trans (hlater s m)
  · intro s m t hm
    obtain h | ⟨hhalts, htime⟩ := hx.notices s m t hm
    · exact .inl (hsame s m (some t) h)
    · exact .inr ⟨Nat.lt_of_lt_of_le hhalts (hlater s _).halts,
        Nat.le_trans htime (hlater s m).time⟩

theorem bind {x : Eval α} {f : α → Eval β} (hx : x.Timely) (hf : ∀ a, (f a).Timely) :
    (x >>= f).Timely := by
  -- the second computation goes on from the machine that the first one left
  have hafter : ∀ s r, (leftBy r).Later (leftBy (match r with
      | .ok a n => (f a).run s n
      | .error e n => .error e n : EStateM.Result Stop Machine β)) := by
    intro s r
    cases r with
    | ok a n => exact (hf a).later s n
    | error e n => exact .refl n
  constructor
  · intro s m
    rw [run_bind]
    exact (hx.later s m).trans (hafter s _)
  · intro s m t hm
    unfold Notices
    rw [run_bind, run_bind]
    obtain hsame | ⟨hhalts, htime⟩ := hx.notices s m t hm
    · -- the deadline may still be noticed by the second computation
      have hlater := hx.later s m
      rw [hsame]
      cases hr : x.run s m with
      | error e n => exact .inl rfl
      | ok a n =>
        rw [hr] at hlater
        exact ((hf a).notices s n t (hlater.stopsAt.trans hm)).imp_right fun h =>
          ⟨Nat.lt_of_le_of_lt hlater.halts h.1, h.2⟩
    · exact .inr ⟨Nat.lt_of_lt_of_le hhalts (hafter s _).halts,
        Nat.le_trans htime (hafter s _).time⟩

theorem stop (e : Stop) : (Eval.stop e : Eval α).Timely :=
  ⟨fun _ m => .refl m, fun _ _ _ _ => .inl rfl⟩

theorem tick (p : Place) : (Eval.tick p).Timely := by
  constructor
  · intro s m
    unfold Eval.tick
    dsimp only
    split
    · exact ⟨Nat.le_add_right _ _, Nat.le_refl _, rfl⟩
    split
    · exact ⟨Nat.le_add_right _ _, by simp [leftBy], rfl⟩
    · exact ⟨Nat.le_add_right _ _, Nat.le_refl _, rfl⟩
  · intro s m t hm
    unfold Notices Eval.tick
    dsimp only [Machine.within]
    rw [hm]
    split
    · exact .inl rfl
    split
    case isTrue hstop => exact .inr ⟨by simp [leftBy], of_decide_eq_true hstop⟩
    case isFalse => exact .inl rfl

theorem writeOutput (n : Nat) (field : String) (value : Json) (p : Place) :
    (Eval.writeOutput n field value p).Timely := by
  constructor
  · intro s m
    unfold Eval.writeOutput
    dsimp only
    split
    · exact .refl m
    split <;> exact ⟨Nat.le_refl _, Nat.le_refl _, rfl⟩
  · intro s m t hm
    left
    unfold Eval.writeOutput Machine.within
    dsimp only
    split
    · rfl
    split <;> rfl

theorem writes {x : Eval α} (hx : x.Writes) : x.Timely := by
  induction hx with
  | fault c p => exact stop _
  | writeOutput n field value p => exact writeOutput n field value p
  | looks _ ih => exact bind (quiet .focused) ih
  | quietly _ hf ih => exact bind ih fun a => quiet (hf a)

theorem drop (f : Fault) : (Eval.drop f).Timely :=
  ⟨fun _ _ => ⟨Nat.le_refl _, Nat.le_refl _, rfl⟩, fun _ _ _ _ => .inl rfl⟩

theorem limited {k : Surroundings → Eval α} (hk : ∀ s, (k s).Timely) :
    (Eval.surroundings >>= k).Timely :=
  ⟨fun s m => (hk s).later s m, fun s m => (hk s).notices s m⟩

theorem under {x : Eval α} (f : Surroundings → Surroundings) (hx : x.Timely) :
    (x.under f).Timely :=
  ⟨fun s => hx.later (f s), fun s => hx.notices (f s)⟩

theorem outcome {x : Eval α} (hx : x.Timely) : x.outcome.Timely := by
  refine hx.through (fun s m => ?_) fun s m t h => ?_
  · rw [run_outcome]
    cases x.run s m <;> exact .refl _
  · rw [run_outcome, run_outcome, h]
    cases x.run s m <;> rfl

theorem inPlaceOf {x : Eval α} (f : Fault) (hx : x.Timely) : (x.inPlaceOf f).Timely := by
  refine hx.through (fun s m => ?_) fun s m t h => ?_
  · rw [run_inPlaceOf]
    cases x.run s m <;> exact ⟨Nat.le_refl _, Nat.le_refl _, rfl⟩
  · rw [run_inPlaceOf, run_inPlaceOf, h]
    cases x.run s m <;> rfl

theorem mapFault {x : Eval α} (f : Fault → Fault) (hx : x.Timely) : (x.mapFault f).Timely := by
  refine hx.through (fun s m => ?_) fun s m t h => ?_
  · rw [run_mapFault]
    rcases x.run s m with ⟨a, n⟩ | ⟨(e | j), n⟩ <;> exact .refl _
  · rw [run_mapFault, run_mapFault, h]
    rcases x.run s m with ⟨a, n⟩ | ⟨(e | j), n⟩ <;> rfl

theorem landing {x : Eval α} (hx : x.Timely) : x.landing.Timely := by
  refine hx.through (fun s m => ?_) fun s m t h => ?_
  · rw [run_landing]
    rcases x.run s m with ⟨a, n⟩ | ⟨(e | j), n⟩ <;> exact .refl _
  · rw [run_landing, run_landing, h]
    rcases x.run s m with ⟨a, n⟩ | ⟨(e | j), n⟩ <;> rfl

theorem catching {x : Eval α} (kind : Fault → Option β) (hx : x.Timely) :
    (x.catching kind).Timely := by
  refine hx.through (fun s m => ?_) fun s m t h => ?_
  · rw [run_catching]
    rcases x.run s m with ⟨a, n⟩ | ⟨(e | j), n⟩
    · exact .refl _
    · dsimp only
      cases kind e <;> exact .refl _
    · exact .refl _
  · rw [run_catching, run_catching, h]
    rcases x.run s m with ⟨a, n⟩ | ⟨(e | j), n⟩
    · rfl
    · dsimp only [stoppingAt]
      cases kind e <;> rfl
    · rfl

theorem andThen {x : Eval α} {after : Eval Unit} (hx : x.Timely) (ha : after.Timely) :
    (x.andThen after).Timely := by
  refine hx.outcome.bind fun r => ?_
  rcases r with (f | j) | a
  · exact (ha.inPlaceOf f).bind fun _ => stop _
  · exact ha.bind fun _ => stop _
  · exact ha.bind fun _ => quiet (.pure a)

theorem close (c : Closing) : (Eval.close c).Timely :=
  Eval.close_of .quiet (fun _ _ => stop _) .bind c

theorem closing {x : Eval α} (c : Closing) (hx : x.Timely) : (x.closing c).Timely :=
  bind (unrecorded (Eval.unrecorded_noteOpen c)) fun outer =>
    andThen hx (bind (unrecorded (Eval.unrecorded_setOpen outer)) fun _ => close c)

theorem value? {x : Eval α} (hx : x.Timely) : x.value?.Timely := by
  refine hx.outcome.bind fun r => ?_
  rcases r with (f | j) | a
  · exact (drop f).bind fun _ => quiet (.pure none)
  · exact quiet (.pure none)
  · exact quiet (.pure (some a))

theorem handling {x : Eval α} {handler : Fault → Eval (Except Place α)} (hx : x.Timely)
    (hh : ∀ e, (handler e).Timely) : (x.handling handler).Timely := by
  refine hx.outcome.bind fun r => ?_
  rcases r with (f | j) | a
  · dsimp only
    split
    · exact stop _
    refine (drop f).bind fun _ => (hh f).bind fun r => ?_
    cases r with
    | ok a => exact quiet (.pure a)
    | error p => exact stop _
  · exact stop _
  · exact quiet (.pure a)

end Eval.Timely

/-- The discipline of what takes notice of deadlines by its checks only. -/
def Discipline.timely : Discipline where
  Holds := Eval.Timely
  quiet := .quiet
  bind := .bind
  fault _ _ := .stop _
  jump _ := .stop _
  tick := .tick
  write p hx := (Eval.Timely.tick p).bind fun _ => .writes hx
  limited hk _ := .limited hk
  under _ := .under _
  closing := .closing
  mapFault _ := .mapFault _
  landing := .landing
  catching _ := .catching _
  value? := .value?
  handling := .handling

/-- **A deadline makes no difference to a script that is done before it.** -/
theorem Engine.execute_within (e : Engine) (script : CompiledScript) (b : Bindings)
    (moduleText : Path → Option String) {t : Nat}
    (h : (leftBy (e.execute script b none moduleText)).time < t) :
    e.execute script b (some t) moduleText =
      stoppingAt (some t) (e.execute script b none moduleText) := by
  have htimely := Discipline.timely.script script.program.body
  obtain hsame | ⟨-, hlate⟩ := htimely.notices
    (e.surroundings script.program moduleText) (b.machine none) t rfl
  · exact hsame
  · exact absurd hlate (Nat.not_le_of_lt h)

end Script

namespace ScriptDirectory

/-- The script of an action, given what is read from the file that it stands in. -/
def source (d : ScriptDirectory) (agent action : String)
    (contents : Except FileError (List UInt8)) : Except DispatchError (List UInt8) :=
  let unavailable (reason : String) : DispatchError :=
    .scriptUnavailable (d.pathOf agent action).text reason
  match Naming.check agent with
  | .error e => .error (unavailable ("agent " ++ e.message))
  | .ok () =>
    match Naming.check action with
    | .error e => .error (unavailable ("action " ++ e.message))
    | .ok () => contents.mapError fun e => unavailable e.message

/-- Of all files only that of the script matters. -/
theorem value_resolve (d : ScriptDirectory) (files : Files) (agent action : String) :
    (d.resolve files agent action).value =
      d.source agent action (files.read (d.pathOf agent action)) := by
  unfold resolve source
  dsimp only
  cases Naming.check agent with
  | error e => rfl
  | ok u =>
    cases Naming.check action with
    | error e => rfl
    | ok u => cases files.read (d.pathOf agent action) <;> rfl

end ScriptDirectory

namespace Dispatcher

open Script

/-! ## Dispatches that are done in time -/

theorem settled_stoppingAt (t : Option Nat) (result : EStateM.Result Stop Machine Unit) :
    settled (stoppingAt t result) = settled result := by
  rcases result with ⟨u, m⟩ | ⟨(f | j), m⟩ <;> rfl

/-- A thread that is done in time does what it does without a deadline. -/
theorem thread_of_inTime {e : Engine} {modules : Path → Option String} {source : List UInt8}
    {b : Bindings} {stop : Option Nat} {now : Nat} {s : Schedule}
    (h : ∀ ends, stop = some ends → (thread e modules source b none now s).ends < ends) :
    (thread e modules source b stop now s).outcome =
        (thread e modules source b none now s).outcome ∧
      (thread e modules source b stop now s).ends =
        (thread e modules source b none now s).ends := by
  cases stop with
  | none => exact ⟨rfl, rfl⟩
  | some ends =>
    have hends := h ends rfl
    cases hcompiled : e.compile source with
    | error f =>
      rw [outcome_thread, outcome_thread]
      simp only [hcompiled, thread, and_self]
    | ok script =>
      cases hrefusal : b.refusal? with
      | some refused =>
        rw [outcome_thread, outcome_thread]
        simp only [hcompiled, hrefusal, thread, Engine.run_of_refusal _ _ _ _ _ hrefusal,
          and_self]
      | none =>
        rw [ends_thread _ _ _ _ hcompiled hrefusal, Option.map_none] at hends
        -- a run that is over before the deadline does not notice it
        have hexecute := e.execute_within script b modules (Nat.lt_sub_iff_add_lt'.mpr hends)
        constructor
        · rw [outcome_thread, outcome_thread]
          simp only [hcompiled, hrefusal, Option.map_some, Option.map_none, hexecute,
            settled_stoppingAt]
        · rw [ends_thread _ _ _ _ hcompiled hrefusal, ends_thread _ _ _ _ hcompiled hrefusal,
            Option.map_some, hexecute, Option.map_none]
          rcases e.execute script b none modules with ⟨u, m⟩ | ⟨f, m⟩ <;> rfl

variable (d : Dispatcher) (files : Files) (c : Context) (ts : Tokens) (now : Nat) (s : Schedule)
  (r : Request)

/-- Whether the context of a run does not end while the dispatch lasts: the thread of the script,
left to itself, is done before, and the dispatcher notices it before. -/
def isUndisturbed : Bool :=
  match (d.scripts.resolve files r.agent r.action).value, r.prepare d.catalog with
  | .ok source, .ok (schema, b) =>
    (d.stopFor schema c ts now s).all fun ends =>
      (thread d.engine (moduleText files) source b none now s).ends + s.finish < ends
  | _, _ => true

/-- A thread that is done in time decides the reply as if its context had no end. -/
theorem reply_of_inTime {source : List UInt8} {schema : ActionSchema} {b : Bindings}
    (hresolved : (d.scripts.resolve files r.agent r.action).value = .ok source)
    (hprepared : r.prepare d.catalog = .ok (schema, b))
    (h : d.isUndisturbed files c ts now s r) :
    (d.dispatch files c ts now s r).value.reply =
      replyFor (thread d.engine (moduleText files) source b none now s).outcome := by
  have hends : ∀ ends, d.stopFor schema c ts now s = some ends →
      (thread d.engine (moduleText files) source b none now s).ends + s.finish < ends := by
    intro ends hstop
    unfold isUndisturbed at h
    simp only [hresolved, hprepared, hstop, Option.all_some, decide_eq_true_eq] at h
    exact h
  obtain ⟨houtcome, hsame⟩ := thread_of_inTime fun ends hstop =>
    Nat.lt_of_le_of_lt (Nat.le_add_right _ s.finish) (hends ends hstop)
  rw [d.reply_of_prepared files c ts now s r hresolved hprepared,
    awaited_inTime fun ends hstop => hsame ▸ hends ends hstop, houtcome]

end Dispatcher

end ScriptedActions
