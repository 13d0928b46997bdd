import ScriptedActions.Proofs.Relaxing

/-!
# Disciplines

What a script can do to the machine is what the operations of `Script/Machine.lean` can do, put
together by the combinators of that module. So a property of computations that the few of them
with an effect have, and that the combinators keep, is a property of every script. Such a property
is a `Discipline`.

**Most operations do not matter to anyone.** They read the machine or change what a script can
see of it, and the record of the run (the versions of the reply object, the writes, the attempts,
the faults that were dropped, the checks that told the run to stop) stays as it is. They are
`Eval.Quiet`, and a discipline has one law for all of them. What is left are `tick` and the writes
to the reply object, the faults, and the combinators through which a fault can pass.

A write comes right behind a check that let the run go on: there is no law for a write by itself,
but one for a check and what `Eval.Writes` behind it.

Two combinators lose faults. `value?` and `handling` remember what they lose, so the law for them
is unconditional. `catching` does not remember: its law asks that the faults it looks for are
ordinary ones, which neither tell the run to stop nor come from a refused write.
-/

set_option autoImplicit false

namespace ScriptedActions.Script

/-! ## Roots of faults -/

namespace Fault

/-- A fault that the interpreter or the script raised for reasons of its own: neither was the run
told to stop, nor was a write to an undeclared output refused, nor was a limit reached. -/
def IsOrdinary (f : Fault) : Prop :=
  ∃ c, f.root? = some c ∧ (∀ n, c ≠ .raised (.undeclared n)) ∧ ¬ (Fault.here c .none).isFatal

@[simp] theorem root?_at (f : Fault) (p : Place) : (f.at_ p).root? = f.root? := by
  cases f <;> rfl

@[simp] theorem root?_orAt (f : Fault) (p : Place) : (f.orAt p).root? = f.root? := by
  unfold orAt
  split
  · exact root?_at f p
  · rfl

@[simp] theorem root?_inCall (f : Fault) (n s : String) (p : Place) :
    (Fault.inCall n s f p).root? = f.root? := rfl

@[simp] theorem root?_inModule (f : Fault) (path : String) (p : Place) :
    (Fault.inModule path f p).root? = f.root? := rfl

end Fault

/-! ## The record of a run -/

/-- What the machine keeps of a run beside what the script can see. -/
structure Record where
  versions : Array ReplyObject
  writes : Array Write
  attempts : Array String
  dropped : Array Fault
  halts : Array Halt
  stopsAt : Option Nat

/-- The record of a run. -/
def Machine.record (m : Machine) : Record :=
  ⟨m.versions, m.writes, m.attempts, m.dropped, m.halts, m.stopsAt⟩

/-- From one machine to the next, nothing happened of which the record tells. -/
structure Machine.SameRecord (m n : Machine) : Prop where
  record : n.record = m.record
  time : m.time ≤ n.time

namespace Machine.SameRecord

theorem refl (m : Machine) : m.SameRecord m := ⟨rfl, Nat.le_refl _⟩

theorem trans {a b c : Machine} (h : a.SameRecord b) (h' : b.SameRecord c) : a.SameRecord c :=
  ⟨h'.record.trans h.record, Nat.le_trans h.time h'.time⟩

variable {m n : Machine}

theorem versions (h : m.SameRecord n) : n.versions = m.versions :=
  congrArg Record.versions h.record

theorem writes (h : m.SameRecord n) : n.writes = m.writes := congrArg Record.writes h.record

theorem attempts (h : m.SameRecord n) : n.attempts = m.attempts :=
  congrArg Record.attempts h.record

theorem dropped (h : m.SameRecord n) : n.dropped = m.dropped := congrArg Record.dropped h.record

end Machine.SameRecord

namespace Eval

variable {α β : Type}

/-- A computation that never stops, leaves the record as it is, and does the same whenever the run
is told to stop and whatever its limits are. -/
structure Unrecorded (x : Eval α) : Prop where
  ends : ∀ s m, ∃ a n, x.run s m = .ok a n ∧ m.SameRecord n ∧
    ∀ t, x.run s { m with stopsAt := t } = .ok a { n with stopsAt := t }
  limits : ∀ s l m, x.run { s with limits := l } m = x.run s m

/-- Such a computation that opens and closes nothing. -/
structure Quiet (x : Eval α) : Prop extends Unrecorded x where
  pending : ∀ s m a n, x.run s m = .ok a n → n.pending = m.pending

namespace Quiet

protected theorem pure (a : α) : Quiet (pure a : Eval α) where
  ends _ m := ⟨a, m, rfl, .refl m, fun _ => rfl⟩
  limits _ _ _ := rfl
  pending _ _ _ _ h := by cases h; rfl

protected theorem bind {x : Eval α} {f : α → Eval β} (hx : Quiet x) (hf : ∀ a, Quiet (f a)) :
    Quiet (x >>= f) := by
  refine ⟨⟨fun s m => ?_, fun s l m => ?_⟩, fun s m b o h => ?_⟩
  · obtain ⟨a, n, hxa, hmn, hxt⟩ := hx.ends s m
    obtain ⟨b, o, hfb, hno, hft⟩ := (hf a).ends s n
    refine ⟨b, o, ?_, hmn.trans hno, fun t => ?_⟩
    · simp only [run_bind, hxa, hfb]
    · simp only [run_bind, hxt t, hft t]
  · simp only [run_bind, hx.limits, (hf _).limits]
  · obtain ⟨a, n, hxa, -, -⟩ := hx.ends s m
    simp only [run_bind, hxa] at h
    exact ((hf a).pending s n b o h).trans (hx.pending s m a n hxa)

/-- An operation that also changes the machine, but nothing of its record. -/
theorem changing (f : Surroundings → Machine → α) (g : Surroundings → Machine → Machine)
    (hg : ∀ s (m : Machine), m.SameRecord (g s m)) (hp : ∀ s m, (g s m).pending = m.pending)
    (h : ∀ s l m t, f { s with limits := l } { m with stopsAt := t } = f s m ∧
      g { s with limits := l } { m with stopsAt := t } = { g s m with stopsAt := t }) :
    Quiet (⟨fun s m => .ok (f s m) (g s m)⟩ : Eval α) := by
  have ht := fun s (m : Machine) t => h s s.limits m t
  have hl := fun s l (m : Machine) => h s l m m.stopsAt
  have hsame : ∀ s (m : Machine), { g s m with stopsAt := m.stopsAt } = g s m :=
    fun s m => (ht s m m.stopsAt).2.symm
  refine ⟨⟨fun s m => ⟨f s m, g s m, rfl, hg s m, fun t => ?_⟩, fun s l m => ?_⟩,
    fun s m a n hr => ?_⟩
  · show EStateM.Result.ok (f s { m with stopsAt := t }) (g s { m with stopsAt := t }) = _
    rw [(ht s m t).1, (ht s m t).2]
  · show EStateM.Result.ok (f { s with limits := l } m) (g { s with limits := l } m) = _
    rw [(hl s l m).1, (hl s l m).2, hsame]
  · cases hr
    exact hp s m

/-- An operation that reads what it runs under and the machine, but neither its limits nor when it is
told to stop. -/
theorem reading (f : Surroundings → Machine → α)
    (h : ∀ s l m t, f { s with limits := l } { m with stopsAt := t } = f s m) :
    Quiet (⟨fun s m => .ok (f s m) m⟩ : Eval α) :=
  changing f (fun _ m => m) (fun _ m => .refl m) (fun _ _ => rfl) fun s l m t => ⟨h s l m t, rfl⟩

/-- What only changes the machine where no record is kept. -/
theorem updating (g : Surroundings → Machine → Machine)
    (hg : ∀ s (m : Machine), m.SameRecord (g s m)) (hp : ∀ s m, (g s m).pending = m.pending)
    (h : ∀ s l m t, g { s with limits := l } { m with stopsAt := t } = { g s m with stopsAt := t }) :
    Quiet (⟨fun s m => .ok () (g s m)⟩ : Eval Unit) :=
  changing (fun _ _ => ()) g hg hp fun s l m t => ⟨rfl, h s l m t⟩

/-! ### The operations that are quiet -/

theorem operations : Quiet Eval.operations := reading _ fun _ _ _ _ => rfl

theorem setOperations (n : Nat) : Quiet (Eval.setOperations n) :=
  updating _ (fun _ _ => ⟨rfl, Nat.le_refl _⟩) (fun _ _ => rfl) fun _ _ _ _ => rfl

theorem sleep (nanos : Nat) : Quiet (Eval.sleep nanos) :=
  updating _ (fun _ _ => ⟨rfl, Nat.le_add_right _ _⟩) (fun _ _ => rfl) fun _ _ _ _ => rfl

theorem now : Quiet Eval.now := reading _ fun _ _ _ _ => rfl

theorem find? (name : String) : Quiet (Eval.find? name) := reading _ fun _ _ _ _ => rfl

theorem variableAt? (i : Nat) : Quiet (Eval.variableAt? i) := reading _ fun _ _ _ _ => rfl

theorem scopeSize : Quiet Eval.scopeSize := reading _ fun _ _ _ _ => rfl

theorem exchangeScope (scope : Array Variable) : Quiet (Eval.exchangeScope scope) :=
  changing _ _ (fun _ _ => ⟨rfl, Nat.le_refl _⟩) (fun _ _ => rfl) fun _ _ _ _ => ⟨rfl, rfl⟩

theorem declare (name : String) (constant : Bool) (v : Value) :
    Quiet (Eval.declare name constant v) :=
  updating _ (fun _ _ => ⟨rfl, Nat.le_refl _⟩) (fun _ _ => rfl) fun _ _ _ _ => rfl

theorem forget (n : Nat) : Quiet (Eval.forget n) :=
  updating _ (fun _ _ => ⟨rfl, Nat.le_refl _⟩) (fun _ _ => rfl) fun _ _ _ _ => rfl

theorem changeVariable (i : Nat) (f : Variable → Variable) : Quiet (Eval.changeVariable i f) :=
  updating _ (fun _ _ => ⟨rfl, Nat.le_refl _⟩) (fun _ _ => rfl) fun _ _ _ _ => rfl

theorem offered (first : Nat) : Quiet (Eval.offered first) := reading _ fun _ _ _ _ => rfl

theorem newCell (v : Value) : Quiet (Eval.newCell v) :=
  changing _ _ (fun _ _ => ⟨rfl, Nat.le_refl _⟩) (fun _ _ => rfl) fun _ _ _ _ => ⟨rfl, rfl⟩

theorem writeCell (c : Nat) (v : Value) : Quiet (Eval.writeCell c v) :=
  updating _ (fun _ _ => ⟨rfl, Nat.le_refl _⟩) (fun _ _ => rfl) fun _ _ _ _ => rfl

theorem contents (v : Value) : Quiet (Eval.contents v) := by
  cases v with
  | shared c => exact reading _ fun _ _ _ _ => rfl
  | _ => exact .pure _

theorem share (i : Nat) : Quiet (Eval.share i) := by
  refine .bind (variableAt? i) fun v => ?_
  split
  · exact .pure _
  · exact .bind (newCell _) fun c => changeVariable i _
  · exact .pure _

theorem assign (i : Nat) (v : Value) : Quiet (Eval.assign i v) := by
  refine .bind (variableAt? i) fun w => ?_
  split
  · exact writeCell _ v
  · exact changeVariable i _

theorem focus? : Quiet Eval.focus? := reading _ fun _ _ _ _ => rfl

theorem focused : Quiet Eval.focused := reading _ fun _ _ _ _ => rfl

theorem exchangeFocus (t : Option Target) : Quiet (Eval.exchangeFocus t) :=
  changing _ _ (fun _ _ => ⟨rfl, Nat.le_refl _⟩) (fun _ _ => rfl) fun _ _ _ _ => ⟨rfl, rfl⟩

theorem refocus (v : Value) : Quiet (Eval.refocus v) :=
  updating _ (fun _ _ => ⟨rfl, Nat.le_refl _⟩) (fun _ _ => rfl) fun _ _ _ _ => rfl

theorem version (n : Nat) : Quiet (Eval.version n) := reading _ fun _ _ _ _ => rfl

theorem renderer : Quiet Eval.renderer := reading _ fun _ _ _ _ => rfl

theorem imports : Quiet Eval.imports := reading _ fun _ _ _ _ => rfl

theorem setImports (l : List (String × Module)) : Quiet (Eval.setImports l) :=
  updating _ (fun _ _ => ⟨rfl, Nat.le_refl _⟩) (fun _ _ => rfl) fun _ _ _ _ => rfl

theorem loaded? (path : Path) : Quiet (Eval.loaded? path) := reading _ fun _ _ _ _ => rfl

theorem remember (path : Path) (module : Module) : Quiet (Eval.remember path module) :=
  updating _ (fun _ _ => ⟨rfl, Nat.le_refl _⟩) (fun _ _ => rfl) fun _ _ _ _ => rfl

theorem constant? (name : String) : Quiet (Eval.constant? name) := reading _ fun _ _ _ _ => rfl

theorem addConstant (name : String) (v : Value) : Quiet (Eval.addConstant name v) :=
  updating _ (fun _ _ => ⟨rfl, Nat.le_refl _⟩) (fun _ _ => rfl) fun _ _ _ _ => rfl

theorem print (forDebugging : Bool) (text : String) (p : Place) :
    Quiet (Eval.print forDebugging text p) :=
  updating _ (fun _ _ => ⟨rfl, Nat.le_refl _⟩) (fun _ _ => rfl) fun _ _ _ _ => rfl

end Quiet

/-- Something quiet first. -/
theorem Limited.after {x : Surroundings → Eval α} {k : α → Surroundings → Eval β}
    (hx : ∀ s, (x s).Quiet) (hl : ∀ s, x s.relaxed = x s) (hk : ∀ a, Limited (k a)) :
    Limited fun s => x s >>= fun a => k a s := by
  intro s m hs
  obtain ⟨a, n, ha, -⟩ := (hx s).ends s m
  have hrelaxed : (x s).run s.relaxed m = .ok a n := ((hx s).limits s .unlimited m).trans ha
  simp only [run_bind, hl, ha, hrelaxed]
  exact hk a s n hs

/-! ## Opening and closing -/

theorem unrecorded_noteOpen (c : Closing) : Unrecorded (noteOpen c) :=
  ⟨fun _ m => ⟨m.pending, _, rfl, ⟨rfl, Nat.le_refl _⟩, fun _ => rfl⟩, fun _ _ _ => rfl⟩

theorem unrecorded_setOpen (l : List Closing) : Unrecorded (setOpen l) :=
  ⟨fun _ _ => ⟨(), _, rfl, ⟨rfl, Nat.le_refl _⟩, fun _ => rfl⟩, fun _ _ _ => rfl⟩

/-- What closes something is quiet, except that a value may not fit any more where it is put back. -/
theorem close_of {P : {α : Type} → Eval α → Prop} (quiet : ∀ {α} {x : Eval α}, Quiet x → P x)
    (fault : ∀ {α} (c : Cause) (p : Place), P (Eval.fault c p : Eval α))
    (bind : ∀ {α β} {x : Eval α} {f : α → Eval β}, P x → (∀ a, P (f a)) → P (x >>= f))
    (c : Closing) : P (close c) := by
  cases c with
  | declaring n => exact quiet (.forget n)
  | scope outer => exact bind (quiet (.exchangeScope outer)) fun _ => quiet (.pure ())
  | imports outer => exact quiet (.setImports outer)
  | operations n => exact quiet (.setOperations n)
  | focus outer owner =>
    refine bind (quiet (.exchangeFocus outer)) fun left => ?_
    cases left with
    | none => exact quiet (.pure ())
    | some left =>
      cases owner with
      | nothing => exact quiet (.pure ())
      | slot i => exact quiet (.assign i left.value)
      | part part p =>
        refine bind (quiet .focused) fun v => bind ?_ fun w => quiet (.refocus w)
        cases part.put v left.value with
        | error c => exact fault c p
        | ok w => exact quiet (.pure w)

/-! ## Writes -/

/-- What may come right behind a check: a look at what is in focus, and a write or a fault. -/
inductive Writes : {α : Type} → Eval α → Prop
  | fault {α : Type} (c : Cause) (p : Place) : Writes (Eval.fault c p : Eval α)
  | writeOutput (n : Nat) (field : String) (value : Json) (p : Place) :
    Writes (Eval.writeOutput n field value p)
  | looks {α : Type} {f : Value → Eval α} (hf : ∀ v, Writes (f v)) : Writes (Eval.focused >>= f)
  | quietly {α β : Type} {x : Eval α} {f : α → Eval β} (hx : Writes x) (hf : ∀ a, Quiet (f a)) :
    Writes (x >>= f)

end Eval

/-! ## Disciplines -/

/-- **A property of computations that every script has.** There is a law for what is quiet, one
for every operation that is not, and one for every combinator that a fault can pass through. -/
structure Discipline where
  Holds : {α : Type} → Eval α → Prop
  quiet {α : Type} {x : Eval α} : x.Quiet → Holds x
  bind {α β : Type} {x : Eval α} {f : α → Eval β} :
    Holds x → (∀ a, Holds (f a)) → Holds (x >>= f)
  fault {α : Type} (c : Cause) (p : Place) : Holds (Eval.fault c p : Eval α)
  jump {α : Type} (j : Jump) : Holds (Eval.jump j : Eval α)
  tick (p : Place) : Holds (Eval.tick p)
  write {α : Type} {x : Eval α} (p : Place) : x.Writes → Holds (Eval.tick p >>= fun _ => x)
  limited {α : Type} {k : Surroundings → Eval α} :
    (∀ s, Holds (k s)) → Eval.Limited k → Holds (Eval.surroundings >>= k)
  under {α : Type} {x : Eval α} {f : Surroundings → Surroundings} :
    Surroundings.Keeps f → Holds x → Holds (x.under f)
  closing {α : Type} {x : Eval α} (c : Closing) : Holds x → Holds (x.closing c)
  mapFault {α : Type} {x : Eval α} {f : Fault → Fault} :
    (∀ e, (f e).root? = e.root?) → Holds x → Holds (x.mapFault f)
  landing {α : Type} {x : Eval α} : Holds x → Holds x.landing
  catching {α β : Type} {x : Eval α} {kind : Fault → Option β} :
    (∀ e, (kind e).isSome → e.IsOrdinary) → Holds x → Holds (x.catching kind)
  value? {α : Type} {x : Eval α} : Holds x → Holds x.value?
  handling {α : Type} {x : Eval α} {handler : Fault → Eval (Except Place α)} :
    Holds x → (∀ e, Holds (handler e)) → Holds (x.handling handler)

namespace Discipline

variable (D : Discipline) {α β : Type}

protected theorem pure (a : α) : D.Holds (pure a : Eval α) := D.quiet (.pure a)

/-- Something quiet first. -/
theorem after {x : Eval α} {f : α → Eval β} (hx : x.Quiet) (hf : ∀ a, D.Holds (f a)) :
    D.Holds (x >>= f) :=
  D.bind (D.quiet hx) hf

/-- What a computation runs under is looked at, but not the limits. -/
theorem reading {k : Surroundings → Eval α} (hl : ∀ s, k s.relaxed = k s)
    (hk : ∀ s, D.Holds (k s)) : D.Holds (Eval.surroundings >>= k) :=
  D.limited hk (.of_eq hl)

theorem ofExcept (r : Except Cause α) (p : Place) : D.Holds (Eval.ofExcept r p) := by
  cases r with
  | ok a => exact D.pure a
  | error c => exact D.fault c p

theorem forM (items : List β) {f : β → Eval Unit} (hf : ∀ b, D.Holds (f b)) :
    D.Holds (items.forM f) := by
  induction items with
  | nil => exact D.pure ()
  | cons b rest ih => exact D.bind (hf b) fun _ => ih

theorem orAt {x : Eval α} (p : Place) (hx : D.Holds x) : D.Holds (x.orAt p) :=
  D.mapFault (fun e => e.root?_orAt p) hx

theorem returned {x : Eval Value} (hx : D.Holds x) : D.Holds x.returned := by
  refine D.bind (D.landing hx) fun r => ?_
  split
  · exact D.pure _
  · exact D.pure _
  · exact D.jump _

/-- The rounds of a loop one by one, each of them a computation. -/
theorem rounds {body : β → Eval (β ⊕ α)} (hbody : ∀ b, D.Holds (body b)) (n : Nat) (b : β) :
    D.Holds (⟨Eval.rounds body n b⟩ : Eval α) := by
  induction n generalizing b with
  | zero => exact D.fault .exhausted .none
  | succ n ih =>
    have h : (⟨Eval.rounds body (n + 1) b⟩ : Eval α) = body b >>= fun r =>
        match r with
        | .inl b => ⟨Eval.rounds body n b⟩
        | .inr a => pure a := by
      refine congrArg Eval.mk (funext fun s => funext fun m => ?_)
      change Eval.rounds body (n + 1) b s m = (body b >>= _).run s m
      simp only [Eval.rounds, Eval.run_bind]
      cases (body b).run s m with
      | ok r m => cases r <;> rfl
      | error e m => rfl
    rw [h]
    refine D.bind (hbody b) fun r => ?_
    cases r with
    | inl b => exact ih b
    | inr a => exact D.pure a

theorem loop {body : β → Eval (β ⊕ α)} (b : β) (hbody : ∀ b, D.Holds (body b)) :
    D.Holds (Eval.loop b body) :=
  D.reading (fun _ => rfl) fun s => D.rounds hbody s.rounds b

theorem uncounted {x : Eval α} (hx : D.Holds x) : D.Holds x.uncounted :=
  D.after .operations fun n => D.closing (.operations n) hx

theorem checkMeasure (z : Value.Size) (p : Place) : D.Holds (Eval.checkMeasure z p) := by
  refine D.limited (fun s => ?_) fun s m _ => ?_
  · split
    · exact D.fault _ _
    · exact D.pure ()
  · cases h : Eval.oversize s.limits z with
    | none => exact .inl rfl
    | some kind => exact .inr (.inl ⟨_, _, rfl, _, rfl, trivial⟩)

theorem checkSize (v : Value) (p : Place) : D.Holds (Eval.checkSize v p) := by
  refine D.limited (fun s => ?_) fun s m _ => .inl ?_
  · split
    · exact D.checkMeasure v.size p
    · exact D.pure ()
  · show (pure () : Eval Unit).run s.relaxed m =
      (if s.limits.boundsData then Eval.checkMeasure v.size p else pure ()).run s.relaxed m
    split <;> rfl

theorem inside {x : Eval α} (hx : D.Holds x) : D.Holds x.inside :=
  D.after .scopeSize fun n => D.closing (.declaring n) hx

theorem withScope {x : Eval α} (inner : Array Variable) (hx : D.Holds x) :
    D.Holds (x.withScope inner) :=
  D.after (.exchangeScope inner) fun outer => D.closing (.scope outer) hx

theorem about {x : Eval α} (t : Option Target) (owner : Owner) (hx : D.Holds x) :
    D.Holds (x.about t owner) :=
  D.after (.exchangeFocus t) fun outer => D.closing (.focus outer owner) hx

theorem aboutNothing {x : Eval α} (hx : D.Holds x) : D.Holds x.aboutNothing :=
  D.about none .nothing hx

theorem aboutValue {x : Eval α} (v : Value) (hx : D.Holds x) : D.Holds (x.aboutValue v) :=
  D.about (some ⟨v, false⟩) .nothing
    (D.bind hx fun a => D.after .focused fun w => D.pure (a, w))

theorem aboutVariable {x : Eval α} (i : Nat) (hx : D.Holds x) : D.Holds (x.aboutVariable i) := by
  refine D.after (.variableAt? i) fun v => ?_
  cases v with
  | none => exact hx
  | some v =>
    exact D.after (.contents v.value) fun w => D.about (some ⟨w, v.constant⟩) (.slot i) hx

theorem withImports {x : Eval α} (hx : D.Holds x) : D.Holds x.withImports :=
  D.after .imports fun outer => D.closing (.imports outer) hx

end Discipline

end ScriptedActions.Script
