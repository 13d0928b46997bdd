import ScriptedActions.Proofs.Interruptions

/-!
# Runs that stop at a check

The check of an operation may tell the run to stop. What is said here of such a check is that it is
the last thing that happens in the run, and there are two sides to it.

**Nothing is written any more.** A write comes right behind a check that let the run go on, and a
run that has to stop has to stop ever after. So no version of the reply object is made after such a
check (`Engine.versions_execute`), and this holds of every run.

**The reply is as it was.** On the way out of a run everything that is open is closed: variables are
forgotten, and a value that was in focus is put back where it belongs. So the machine in the end is
not the one at the check, but the one that is left when all that was open then is closed
(`Engine.backAt_execute`). This holds if no interruption was dropped on the way, and a script can
see to it that one is: then the run goes on behind the check, up to the next one.
-/

set_option autoImplicit false

namespace ScriptedActions.Script

/-! ## Going back to a check -/

/-- The machine with things as they stood at a check. The record of the run stays. -/
def Machine.backAt (m : Machine) (h : Halt) : Machine :=
  { m with
    scope := h.scope
    focus := h.focus
    cells := h.cells
    operations := h.operations
    imports := h.imports }

namespace Eval

variable {α β : Type}

/-- A computation on how things stand and on nothing else: it changes what a check would note, but
not what is open, and it asks neither for that nor for what it runs under. -/
def IsLocal (x : Eval α) : Prop :=
  ∀ (s : Surroundings) (m : Machine) (a : α) (n : Machine), x.run s m = .ok a n →
    (∀ h, n.backAt h = m.backAt h) ∧
    ∀ s' opened, x.run s' { m with pending := opened } = .ok a { n with pending := opened }

namespace IsLocal

protected theorem pure (a : α) : IsLocal (pure a : Eval α) := by
  intro s m b n h
  cases h
  exact ⟨fun _ => rfl, fun _ _ => rfl⟩

protected theorem bind {x : Eval α} {f : α → Eval β} (hx : x.IsLocal) (hf : ∀ a, (f a).IsLocal) :
    (x >>= f).IsLocal := by
  intro s m b o h
  rw [run_bind] at h
  cases hr : x.run s m with
  | error e n =>
    rw [hr] at h
    cases h
  | ok a n =>
    rw [hr] at h
    obtain ⟨hback, hopen⟩ := hx s m a n hr
    obtain ⟨hback', hopen'⟩ := hf a s n b o h
    refine ⟨fun k => (hback' k).trans (hback k), fun s' opened => ?_⟩
    rw [run_bind, hopen s' opened]
    exact hopen' s' opened

theorem fault (c : Cause) (p : Place) : IsLocal (Eval.fault c p : Eval α) := by
  intro s m a n h
  cases h

/-- An operation that looks at how things stand and changes it. -/
theorem changing (f : Machine → α) (g : Machine → Machine)
    (hg : ∀ m h, (g m).backAt h = m.backAt h)
    (hp : ∀ m opened, f { m with pending := opened } = f m ∧
      g { m with pending := opened } = { g m with pending := opened }) :
    IsLocal (⟨fun _ m => .ok (f m) (g m)⟩ : Eval α) := by
  intro s m a n h
  cases h
  refine ⟨hg m, fun s' opened => ?_⟩
  show EStateM.Result.ok (f { m with pending := opened }) (g { m with pending := opened }) = _
  rw [(hp m opened).1, (hp m opened).2]

end IsLocal

/-- What closes something is local. -/
theorem isLocal_close (c : Closing) : (close c).IsLocal := by
  cases c with
  | declaring n => exact .changing _ _ (fun _ _ => rfl) fun _ _ => ⟨rfl, rfl⟩
  | scope outer =>
    exact .bind (.changing _ _ (fun _ _ => rfl) fun _ _ => ⟨rfl, rfl⟩) fun _ => .pure ()
  | imports outer => exact .changing _ _ (fun _ _ => rfl) fun _ _ => ⟨rfl, rfl⟩
  | operations n => exact .changing _ _ (fun _ _ => rfl) fun _ _ => ⟨rfl, rfl⟩
  | focus outer owner =>
    refine .bind (.changing _ _ (fun _ _ => rfl) fun _ _ => ⟨rfl, rfl⟩) fun left => ?_
    cases left with
    | none => exact .pure ()
    | some left =>
      cases owner with
      | nothing => exact .pure ()
      | slot i =>
        refine .bind (.changing _ _ (fun _ _ => rfl) fun _ _ => ⟨rfl, rfl⟩) fun v => ?_
        split
        · exact .changing _ _ (fun _ _ => rfl) fun _ _ => ⟨rfl, rfl⟩
        · exact .changing _ _ (fun _ _ => rfl) fun _ _ => ⟨rfl, rfl⟩
      | part part p =>
        refine .bind (.changing _ _ (fun _ _ => rfl) fun _ _ => ⟨rfl, rfl⟩) fun v => ?_
        refine .bind ?_ fun w => .changing _ _ (fun _ _ => rfl) fun _ _ => ⟨rfl, rfl⟩
        cases part.put v left.value with
        | error c => exact .fault c p
        | ok w => exact .pure w

/-- Closes what was opened, one after the other. -/
def closeAll : List Closing → Eval Unit
  | [] => pure ()
  | c :: rest => do
    close c
    closeAll rest

theorem isLocal_closeAll (opened : List Closing) : (closeAll opened).IsLocal := by
  induction opened with
  | nil => exact .pure ()
  | cons c rest ih => exact .bind (isLocal_close c) fun _ => ih

theorem run_closeAll_concat {s : Surroundings} {m n o : Machine} {opened : List Closing}
    {c : Closing} (hfirst : (closeAll opened).run s m = .ok () n)
    (hlast : (close c).run s n = .ok () o) : (closeAll (opened ++ [c])).run s m = .ok () o := by
  induction opened generalizing m with
  | nil =>
    cases hfirst
    show (close c >>= fun _ => pure ()).run s n = _
    rw [run_bind, hlast]
    rfl
  | cons d rest ih =>
    show (close d >>= fun _ => closeAll (rest ++ [c])).run s m = _
    have hrest : (close d >>= fun _ => closeAll rest).run s m = .ok () n := hfirst
    rw [run_bind] at hrest ⊢
    cases hd : (close d).run s m with
    | error e k =>
      rw [hd] at hrest
      cases hrest
    | ok u k =>
      rw [hd] at hrest
      exact ih hrest

end Eval

/-- Things are as they stood at a check, once some of what was open then is closed. -/
def Machine.IsLeftOf (n : Machine) (h : Halt) (opened : List Closing) : Prop :=
  ∀ s, (Eval.closeAll opened).run s (n.backAt h) = .ok () n

/-- One thing more is closed. -/
theorem Machine.IsLeftOf.close {n o : Machine} {h : Halt} {opened : List Closing} {c : Closing}
    {outer : List Closing} {s : Surroundings} (hn : n.IsLeftOf h opened)
    (hc : (Eval.close c).run s { n with pending := outer } = .ok () o) :
    o.IsLeftOf h (opened ++ [c]) := by
  obtain ⟨hback, hsame⟩ := Eval.isLocal_close c s _ _ _ hc
  have ho : o.pending = outer := congrArg Machine.pending (hback h)
  intro s'
  rw [hback h]
  -- the machine before the last step, with what is open noted already
  have hopened := (Eval.isLocal_closeAll opened s' _ _ _ (hn s')).2 s' outer
  have hlast := hsame s' outer
  refine Eval.run_closeAll_concat hopened (hlast.trans ?_)
  rw [← ho]

/-! ## What becomes of a check -/

namespace Eval

variable {α β : Type}

/-- A computation that makes no check, and leaves open what was open. -/
structure MakesNoCheck (x : Eval α) : Prop where
  same : ∀ s m, (leftBy (x.run s m)).pending = m.pending ∧ (leftBy (x.run s m)).halts = m.halts
  ordinary : ∀ s m f n, x.run s m = .error (.fault f) n → ¬ f.IsInterruption

namespace MakesNoCheck

theorem quiet {x : Eval α} (hx : x.Quiet) : x.MakesNoCheck := by
  constructor
  · intro s m
    obtain ⟨a, n, hr, hmn, -⟩ := hx.ends s m
    rw [hr]
    exact ⟨hx.pending s m a n hr, congrArg Record.halts hmn.record⟩
  · intro s m f n h
    obtain ⟨a, n', hr, -⟩ := hx.ends s m
    cases hr.symm.trans h

theorem fault (c : Cause) (p : Place) : (Eval.fault c p : Eval α).MakesNoCheck := by
  refine ⟨fun _ _ => ⟨rfl, rfl⟩, fun s m f n h => ?_⟩
  cases h
  exact nofun

theorem jump (j : Jump) : (Eval.jump j : Eval α).MakesNoCheck := by
  refine ⟨fun _ _ => ⟨rfl, rfl⟩, fun s m f n h => ?_⟩
  cases h

theorem writeOutput (n : Nat) (field : String) (value : Json) (p : Place) :
    (Eval.writeOutput n field value p).MakesNoCheck := by
  constructor
  · intro s m
    unfold Eval.writeOutput
    dsimp only
    split
    · exact ⟨rfl, rfl⟩
    split <;> exact ⟨rfl, rfl⟩
  · intro s m f n h
    unfold Eval.writeOutput at h
    dsimp only at h
    split at h
    · cases h
      exact nofun
    split at h <;> cases h
    exact nofun

theorem bind {x : Eval α} {f : α → Eval β} (hx : x.MakesNoCheck) (hf : ∀ a, (f a).MakesNoCheck) :
    (x >>= f).MakesNoCheck := by
  constructor
  · intro s m
    have hfirst := hx.same s m
    rw [run_bind]
    cases hr : x.run s m with
    | error e n =>
      rw [hr] at hfirst
      exact hfirst
    | ok a n =>
      rw [hr] at hfirst
      have hlast := (hf a).same s n
      exact ⟨hlast.1.trans hfirst.1, hlast.2.trans hfirst.2⟩
  · intro s m e o h
    rw [run_bind] at h
    cases hr : x.run s m with
    | error stop n =>
      rw [hr] at h
      cases h
      exact hx.ordinary s m e _ hr
    | ok a n =>
      rw [hr] at h
      exact (hf a).ordinary s n e o h

theorem writes {x : Eval α} (hx : x.Writes) : x.MakesNoCheck := by
  induction hx with
  | fault c p => exact fault c p
  | writeOutput n field value p => exact writeOutput n field value p
  | looks _ ih => exact bind (quiet .focused) ih
  | quietly _ hf ih => exact bind ih fun a => quiet (hf a)

theorem close (c : Closing) : (Eval.close c).MakesNoCheck := close_of quiet fault bind c

end MakesNoCheck

end Eval

/-- The ledger of one fault that was dropped: it stays dropped. -/
def Ledger.remembers (f : Fault) : Ledger where
  Holds _ m := f ∈ m.dropped
  perm _ h := h
  quiet hmn h := hmn.dropped ▸ h
  raise _ h := h
  rewrap _ h := h
  drop h := Array.mem_push_of_mem _ h
  forget _ h := h
  write _ _ _ h := h
  refuse _ _ _ h := h
  halt _ _ h := h

/-- No interruption was dropped. -/
def Machine.DropsNone (m : Machine) : Prop := ∀ f ∈ m.dropped, ¬ f.IsInterruption

theorem Machine.DropsNone.of_push {m : Machine} {f : Fault}
    (h : ({ m with dropped := m.dropped.push f } : Machine).DropsNone) : m.DropsNone :=
  fun g hg => h g (Array.mem_push_of_mem f hg)

/-- What is said of the end of a computation: nothing is open that was not open before, and no
check told the run to stop, unless this is why the computation ended; then things are as they stood
at that check, once all is closed that the computation had opened. -/
def Unwound {α : Type} (m : Machine) : EStateM.Result Stop Machine α → Prop
  | .ok _ n | .error (.jump _) n => n.pending = m.pending ∧ n.halts = m.halts
  | .error (.fault f) n => n.pending = m.pending ∧
      (¬ f.IsInterruption ∧ n.halts = m.halts ∨
        f.IsInterruption ∧ ∃ h opened, n.halts = m.halts.push h ∧
          h.pending = opened ++ m.pending ∧ n.IsLeftOf h opened)

namespace Unwound

variable {α : Type} {m n : Machine} {f : Fault}

/-- It does not matter what happened before, if no check was made. -/
theorem after {r : EStateM.Result Stop Machine α} (hn : n.pending = m.pending ∧ n.halts = m.halts)
    (h : Unwound n r) : Unwound m r := by
  unfold Unwound at h ⊢
  rw [← hn.1, ← hn.2]
  exact h

/-- The end of something that makes no check. -/
theorem of_same {stop : Stop} (hn : n.pending = m.pending ∧ n.halts = m.halts)
    (hstop : ∀ f, stop = .fault f → ¬ f.IsInterruption) :
    Unwound m (.error stop n : EStateM.Result Stop Machine α) := by
  cases stop with
  | fault f => exact ⟨hn.1, .inl ⟨hstop f rfl, hn.2⟩⟩
  | jump j => exact hn

theorem ordinary (h : Unwound m (.error (.fault f) n : EStateM.Result Stop Machine α))
    (hf : ¬ f.IsInterruption) : n.pending = m.pending ∧ n.halts = m.halts := by
  obtain ⟨hpending, ⟨-, hhalts⟩ | ⟨hi, -⟩⟩ := h
  · exact ⟨hpending, hhalts⟩
  · exact absurd hi hf

end Unwound

/-- A computation that forgets no fault that was dropped, and of the end of which that is true as
long as no interruption is dropped. -/
structure Eval.Unwinds {α : Type} (x : Eval α) : Prop where
  remembers : ∀ f, (Ledger.remembers f).Keeps x
  unwound : ∀ s m, (leftBy (x.run s m)).DropsNone → Unwound m (x.run s m)

namespace Eval.Unwinds

variable {α β : Type}

/-- If none is dropped up to the end then none was dropped before. -/
theorem dropsNone {x : Eval α} (hx : x.Unwinds) {s : Surroundings} {m : Machine}
    (h : (leftBy (x.run s m)).DropsNone) : m.DropsNone := by
  intro f hf
  refine h f ?_
  have hafter := hx.remembers f s m [] [] ⟨hf, nofun⟩
  rcases hr : x.run s m with ⟨a, n⟩ | ⟨(g | j), n⟩ <;> rw [hr] at hafter <;> exact hafter.holds

theorem unwound_of_noCheck {x : Eval α} (hx : x.MakesNoCheck) (s : Surroundings) (m : Machine) :
    Unwound m (x.run s m) := by
  have hsame := hx.same s m
  cases hr : x.run s m with
  | ok a n =>
    rw [hr] at hsame
    exact hsame
  | error stop n =>
    rw [hr] at hsame
    refine .of_same hsame fun f hstop => hx.ordinary s m f n ?_
    rw [hr, hstop]

theorem of_noCheck {x : Eval α} (hremembers : ∀ f, (Ledger.remembers f).Keeps x)
    (hx : x.MakesNoCheck) : x.Unwinds :=
  ⟨hremembers, fun s m _ => unwound_of_noCheck hx s m⟩

theorem quiet {x : Eval α} (hx : x.Quiet) : x.Unwinds :=
  of_noCheck (fun _ => .quiet hx) (.quiet hx)

theorem fault (c : Cause) (p : Place) : (Eval.fault c p : Eval α).Unwinds :=
  of_noCheck (fun _ => .fault c p) (.fault c p)

theorem jump (j : Jump) : (Eval.jump j : Eval α).Unwinds :=
  of_noCheck (fun _ => .jump j) (.jump j)

theorem bind {x : Eval α} {f : α → Eval β} (hx : x.Unwinds) (hf : ∀ a, (f a).Unwinds) :
    (x >>= f).Unwinds := by
  refine ⟨fun e => .bind (hx.remembers e) fun a => (hf a).remembers e, fun s m hnone => ?_⟩
  have hfirst := hx.unwound s m
  rw [run_bind] at hnone ⊢
  cases hr : x.run s m with
  | ok a n =>
    rw [hr] at hnone hfirst
    exact .after (hfirst ((hf a).dropsNone hnone)) ((hf a).unwound s n hnone)
  | error stop n =>
    rw [hr] at hnone hfirst
    cases stop <;> exact hfirst hnone

/-- Right at a check nothing has to be closed yet. -/
theorem tick (p : Place) : (Eval.tick p).Unwinds := by
  refine ⟨fun _ => .tick p, fun s m _ => ?_⟩
  unfold Eval.tick
  dsimp only
  split
  · exact ⟨rfl, .inl ⟨nofun, rfl⟩⟩
  split
  · exact ⟨rfl, .inr ⟨rfl, _, [], rfl, rfl, fun _ => rfl⟩⟩
  · exact ⟨rfl, rfl⟩

theorem write {x : Eval α} (p : Place) (hx : x.Writes) : (Eval.tick p >>= fun _ => x).Unwinds := by
  refine ⟨fun _ => .write p hx, fun s m hnone => ?_⟩
  have hfirst := (tick p).unwound s m
  rw [run_bind] at hnone ⊢
  cases hr : (Eval.tick p).run s m with
  | ok u n =>
    obtain rfl := eq_of_tick hr
    exact unwound_of_noCheck (.writes hx) s _
  | error stop n =>
    rw [hr] at hnone hfirst
    cases stop <;> exact hfirst hnone

theorem limited {k : Surroundings → Eval α} (hk : ∀ s, (k s).Unwinds) :
    (Eval.surroundings >>= k).Unwinds :=
  ⟨fun e => .limited fun s => (hk s).remembers e, fun s => (hk s).unwound s⟩

theorem under {x : Eval α} (f : Surroundings → Surroundings) (hx : x.Unwinds) :
    (x.under f).Unwinds :=
  ⟨fun e => .under f (hx.remembers e), fun s => hx.unwound (f s)⟩

/-- On the way out one thing more is closed. If that fails, the interruption is dropped. -/
theorem closing {x : Eval α} (c : Closing) (hx : x.Unwinds) : (x.closing c).Unwinds := by
  refine ⟨fun e => .closing c (hx.remembers e), fun s m hnone => ?_⟩
  have hinner := hx.unwound s { m with pending := c :: m.pending }
  have hclose : (close c).Unwinds := of_noCheck (fun _ => .close c) (.close c)
  rw [run_closing] at hnone ⊢
  rcases hr : x.run s { m with pending := c :: m.pending } with ⟨a, n⟩ | ⟨(f | j), n⟩ <;>
    rw [hr] at hnone hinner
  all_goals
    have hsame := (MakesNoCheck.close c).same s { n with pending := m.pending }
    have hordinary := (MakesNoCheck.close c).ordinary s { n with pending := m.pending }
    have hdropped := hclose.dropsNone (s := s) (m := { n with pending := m.pending })
    dsimp only at hnone ⊢
    rcases hc : (close c).run s { n with pending := m.pending } with ⟨u, o⟩ | ⟨stop, o⟩ <;>
      rw [hc] at hnone hsame hdropped
  · exact ⟨hsame.1, hsame.2.trans (hinner (hdropped hnone)).2⟩
  · refine .of_same ⟨hsame.1, hsame.2.trans (hinner (hdropped hnone)).2⟩ fun g hg => ?_
    exact hordinary g o (hg ▸ hc)
  · obtain ⟨-, ⟨hf, hhalts⟩ | ⟨hf, h, opened, hhalts, hopened, hleft⟩⟩ := hinner (hdropped hnone)
    · exact ⟨hsame.1, .inl ⟨hf, hsame.2.trans hhalts⟩⟩
    · refine ⟨hsame.1, .inr ⟨hf, h, opened ++ [c], hsame.2.trans hhalts, ?_, hleft.close hc⟩⟩
      rw [hopened, List.append_assoc, List.singleton_append]
  · have hf := hnone f Array.mem_push_self
    have hhalts := ((hinner (hdropped hnone.of_push)).ordinary hf).2
    refine .of_same ⟨hsame.1, hsame.2.trans hhalts⟩ fun g hg => ?_
    exact hordinary g o (hg ▸ hc)
  · exact ⟨hsame.1, hsame.2.trans (hinner (hdropped hnone)).2⟩
  · refine .of_same ⟨hsame.1, hsame.2.trans (hinner (hdropped hnone)).2⟩ fun g hg => ?_
    exact hordinary g o (hg ▸ hc)

theorem mapFault {x : Eval α} {f : Fault → Fault} (hf : ∀ e, (f e).root? = e.root?)
    (hx : x.Unwinds) : (x.mapFault f).Unwinds := by
  refine ⟨fun e => .mapFault hf (hx.remembers e), fun s m hnone => ?_⟩
  have hunwound := hx.unwound s m
  rw [run_mapFault] at hnone ⊢
  rcases hr : x.run s m with ⟨a, n⟩ | ⟨(g | j), n⟩ <;> rw [hr] at hnone hunwound
  · exact hunwound hnone
  · have hg : (f g).IsInterruption ↔ g.IsInterruption := by
      unfold Fault.IsInterruption
      rw [hf g]
    obtain ⟨hpending, h⟩ := hunwound hnone
    refine ⟨hpending, ?_⟩
    rw [hg]
    exact h
  · exact hunwound hnone

theorem landing {x : Eval α} (hx : x.Unwinds) : x.landing.Unwinds := by
  refine ⟨fun e => .landing (hx.remembers e), fun s m hnone => ?_⟩
  have hunwound := hx.unwound s m
  rw [run_landing] at hnone ⊢
  rcases hr : x.run s m with ⟨a, n⟩ | ⟨(g | j), n⟩ <;> rw [hr] at hnone hunwound <;>
    exact hunwound hnone

/-- What is looked for is ordinary, so no interruption is forgotten. -/
theorem catching {x : Eval α} {kind : Fault → Option β}
    (hk : ∀ e, (kind e).isSome → e.IsOrdinary) (hx : x.Unwinds) : (x.catching kind).Unwinds := by
  refine ⟨fun e => .catching hk (hx.remembers e), fun s m hnone => ?_⟩
  have hunwound := hx.unwound s m
  rw [run_catching] at hnone ⊢
  rcases hr : x.run s m with ⟨a, n⟩ | ⟨(g | j), n⟩ <;> rw [hr] at hnone hunwound
  · exact hunwound hnone
  · dsimp only at hnone ⊢
    cases hkind : kind g with
    | none =>
      rw [hkind] at hnone
      exact hunwound hnone
    | some b =>
      rw [hkind] at hnone
      obtain ⟨c, hc, -⟩ := hk g (by rw [hkind]; rfl)
      refine (hunwound hnone).ordinary fun hi => ?_
      cases hc.symm.trans hi
  · exact hunwound hnone

theorem value? {x : Eval α} (hx : x.Unwinds) : x.value?.Unwinds := by
  refine ⟨fun e => .value? (hx.remembers e), fun s m hnone => ?_⟩
  have hunwound := hx.unwound s m
  rw [run_value?] at hnone ⊢
  rcases hr : x.run s m with ⟨a, n⟩ | ⟨(g | j), n⟩ <;> rw [hr] at hnone hunwound
  · exact hunwound hnone
  · exact (hunwound hnone.of_push).ordinary (hnone g Array.mem_push_self)
  · exact hunwound hnone

/-- A fault that a handler takes is dropped, so it is no interruption. -/
theorem handling {x : Eval α} {handler : Fault → Eval (Except Place α)} (hx : x.Unwinds)
    (hh : ∀ e, (handler e).Unwinds) : (x.handling handler).Unwinds := by
  refine ⟨fun e => .handling (hx.remembers e) fun g => (hh g).remembers e, fun s m hnone => ?_⟩
  have hunwound := hx.unwound s m
  rw [run_handling] at hnone ⊢
  rcases hr : x.run s m with ⟨a, n⟩ | ⟨(g | j), n⟩ <;> rw [hr] at hnone hunwound
  · exact hunwound hnone
  · dsimp only at hnone ⊢
    split
    case isTrue hfatal =>
      rw [if_pos hfatal] at hnone
      exact hunwound hnone
    case isFalse hfatal =>
      rw [if_neg hfatal] at hnone
      have hhandler := (hh g).unwound s { n with dropped := n.dropped.push g }
      have hdropped := (hh g).dropsNone (s := s) (m := { n with dropped := n.dropped.push g })
      rcases hr' : (handler g).run s { n with dropped := n.dropped.push g } with
        ⟨(p | a), o⟩ | ⟨stop, o⟩ <;> rw [hr'] at hnone hhandler hdropped
      all_goals
        have hg := hdropped hnone g Array.mem_push_self
        have hn := (hunwound (hdropped hnone).of_push).ordinary hg
      · refine .of_same ?_ fun f hf => ?_
        · exact ⟨(hhandler hnone).1.trans hn.1, (hhandler hnone).2.trans hn.2⟩
        · cases hf
          exact fun hi => hg ((g.root?_at p).symm.trans hi)
      · exact ⟨(hhandler hnone).1.trans hn.1, (hhandler hnone).2.trans hn.2⟩
      · cases stop <;> exact Unwound.after hn (hhandler hnone)
  · exact hunwound hnone

end Eval.Unwinds

/-- A check that is too late stops the run, and changes nothing that a script can see. -/
theorem Eval.tick_of_due {s : Surroundings} {m : Machine} (p : Place)
    (hlimit : ¬ (s.limits.operations ≠ 0 && s.limits.operations < m.operations + 1) = true)
    (hdue : m.stopsAt.any (· ≤ m.time + tickTime)) :
    ∃ n, (tick p).run s m = .error (.fault (.terminated p)) n ∧ n.time = m.time + tickTime ∧
      n.writes = m.writes ∧ n.reply? = m.reply? := by
  unfold tick
  dsimp only
  rw [if_neg hlimit, if_pos hdue]
  exact ⟨_, rfl, rfl, rfl, rfl⟩

/-- The discipline of the way out of a check. -/
def Discipline.unwinding : Discipline where
  Holds := Eval.Unwinds
  quiet := .quiet
  bind := .bind
  fault := .fault
  jump := .jump
  tick := .tick
  write := .write
  limited hk _ := .limited hk
  under _ := .under _
  closing := .closing
  mapFault := .mapFault
  landing := .landing
  catching := .catching
  value? := .value?
  handling := .handling

/-- The ledger of the silence behind a check: a run that was told to stop still has to, and has made
no version since. -/
def Ledger.silence : Ledger where
  Holds _ m := ∀ h ∈ m.halts, h.versions = m.versions.size ∧ m.stopsAt.any (· ≤ m.time)
  perm _ h := h
  quiet {_ m n} hmn hm h hh := by
    have hhalts : n.halts = m.halts := congrArg Record.halts hmn.record
    have hstopsAt : n.stopsAt = m.stopsAt := congrArg Record.stopsAt hmn.record
    obtain ⟨hversions, hdue⟩ := hm h (hhalts ▸ hh)
    refine ⟨hversions.trans (congrArg Array.size hmn.versions.symm), ?_⟩
    rw [hstopsAt]
    obtain ⟨t, ht, hle⟩ := (Option.any_eq_true _ _).mp hdue
    exact (Option.any_eq_true _ _).mpr
      ⟨t, ht, decide_eq_true (Nat.le_trans (of_decide_eq_true hle) hmn.time)⟩
  raise _ h := h
  rewrap _ h := h
  drop h := h
  forget _ h := h
  write _ _ hgoes hm h hh := by
    -- the check before the write let the run go on, so none has told it to stop
    rw [hgoes] at hm
    cases (hm h hh).2
  refuse _ _ _ h := h
  halt {_ m} _ hdue hm h hh := by
    rcases Array.mem_push.mp hh with hh | rfl
    · exact hm h hh
    · exact ⟨rfl, hdue⟩

namespace Engine

variable (e : Engine) (script : CompiledScript) (b : Bindings) (stopsAt : Option Nat)
  (moduleText : Path → Option String)

/-- **No version of the reply object is made behind a check that tells the run to stop.** -/
theorem versions_execute {h : Halt}
    (hh : h ∈ (leftBy (e.execute script b stopsAt moduleText)).halts) :
    h.versions = (leftBy (e.execute script b stopsAt moduleText)).versions.size ∧
      (leftBy (e.execute script b stopsAt moduleText)).stopsAt.any
        (· ≤ (leftBy (e.execute script b stopsAt moduleText)).time) := by
  have hafter := Ledger.silence.execute e script b stopsAt moduleText (by
    intro h hh
    simp [Bindings.machine] at hh)
  rcases hr : e.execute script b stopsAt moduleText with ⟨u, m⟩ | ⟨(f | j), m⟩ <;>
    rw [hr] at hafter hh <;> exact hafter.holds h hh

/-- **A run that drops no interruption ends with the check that tells it to stop**, and with things
as they stood then. -/
theorem backAt_execute
    (hnone : (leftBy (e.execute script b stopsAt moduleText)).DropsNone) {h : Halt}
    (hh : h ∈ (leftBy (e.execute script b stopsAt moduleText)).halts) :
    ∃ f m, e.execute script b stopsAt moduleText = .error (.fault f) m ∧ f.IsInterruption ∧
      m.halts = #[h] ∧ m.IsLeftOf h h.pending := by
  have hunwound := (Discipline.unwinding.script script.program.body).unwound
    (e.surroundings script.program moduleText) (b.machine stopsAt) hnone
  have hempty : ∀ {halts : Array Halt}, halts = (b.machine stopsAt).halts → h ∉ halts := by
    rintro _ rfl
    simp [Bindings.machine]
  unfold execute at hh ⊢
  rcases hr : (runScript (interpret fuel) script.program.body).run
      (e.surroundings script.program moduleText) (b.machine stopsAt) with
    ⟨u, m⟩ | ⟨(f | j), m⟩ <;> rw [hr] at hunwound hh
  · exact absurd hh (hempty hunwound.2)
  · obtain ⟨-, ⟨-, hhalts⟩ | ⟨hf, k, opened, hhalts, hopened, hleft⟩⟩ := hunwound
    · exact absurd hh (hempty hhalts)
    · have hhalts' : m.halts = #[k] := hhalts
      have hpending : k.pending = opened := hopened.trans (List.append_nil opened)
      change h ∈ m.halts at hh
      obtain rfl : h = k := by simpa [hhalts'] using hh
      exact ⟨f, m, rfl, hf, hhalts', hpending ▸ hleft⟩
  · exact absurd hh (hempty hunwound.2)

/-- A run that is to stop from the begin on stops at its first statement. -/
theorem execute_of_stopped {t : Nat} (ht : t ≤ Eval.tickTime) {s : Stmt} {rest : List Stmt}
    (hbody : script.program.body = s :: rest) :
    ∃ m, e.execute script b (some t) moduleText = .error (.fault (.terminated s.place)) m ∧
      m.time = Eval.tickTime ∧ m.writes = #[] ∧ m.reply? = some b.reply := by
  have hlimit : ¬ (e.limits.operations ≠ 0 && e.limits.operations < (b.machine (some t)).operations
      + 1) = true := by
    simp [Bindings.machine]
  have hdue : (b.machine (some t)).stopsAt.any (· ≤ (b.machine (some t)).time + Eval.tickTime) := by
    simpa [Bindings.machine] using ht
  obtain ⟨m, hm, htime, hwrites, hreply⟩ := Eval.tick_of_due s.place
    (s := e.surroundings script.program moduleText) hlimit hdue
  have hfuel : fuel = 999999999999999999 + 1 := rfl
  refine ⟨m, ?_, htime.trans (Nat.zero_add _), hwrites, hreply.trans rfl⟩
  unfold execute
  rw [hbody, hfuel]
  show (evalStmt (interpret 999999999999999999) s >>= _).run _ _ = _
  unfold evalStmt
  rw [Eval.run_bind, Eval.run_bind, hm]

/-- The reply object as it stood at a check: what its variable holds when all that was open then is
closed. -/
def replyAt? (m : Machine) (h : Halt) : Option ReplyObject :=
  (leftBy ((Eval.closeAll h.pending).run (e.surroundings script.program moduleText)
    (m.backAt h))).reply?

/-- **What a run comes to that a check tells to stop.** Behind the check no output is written any
more. The run ends as interrupted, and its reply object is as it stood at the check, unless an
interruption was dropped. A run that is to stop from the begin on writes nothing at all, and it is
interrupted if it has a statement. -/
theorem run_halted (hb : b.refusal? = none) :
    let m := leftBy (e.execute script b stopsAt moduleText)
    let r := e.run script b stopsAt moduleText
    (∀ h ∈ m.halts, h.versions = m.versions.size) ∧
    (∀ h ∈ m.halts,
      (r.outcome = .error (.interrupted m.time) ∧ m.halts = #[h] ∧
        r.script.reply = e.replyAt? script moduleText m h) ∨
      ∃ f ∈ m.dropped, f.IsInterruption) ∧
    (stopsAt.any (· ≤ Eval.tickTime) →
      m.writes = #[] ∧ r.script.reply = some b.reply ∧
        (script.program.body ≠ [] → r.outcome = .error (.interrupted Eval.tickTime))) := by
  intro m r
  have hr : r = ⟨verdict (e.execute script b stopsAt moduleText),
      { script with reply := m.reply? }, m.printed.toList, m.time⟩ :=
    e.run_of_accepted script b stopsAt moduleText hb
  refine ⟨fun h hh => (e.versions_execute script b stopsAt moduleText hh).1, fun h hh => ?_,
    fun hstopped => ?_⟩
  · by_cases hnone : m.DropsNone
    · left
      obtain ⟨f, n, hend, hf, hhalts, hleft⟩ :=
        e.backAt_execute script b stopsAt moduleText hnone hh
      have hm : m = n := congrArg leftBy hend
      refine ⟨?_, hm ▸ hhalts, ?_⟩
      · rw [hr, hend, hm]
        have hroot : f.root? = none := hf
        simp only [verdict, Machine.classify, hroot]
      · rw [hr]
        unfold replyAt?
        rw [hm, hleft (e.surroundings script.program moduleText)]
        rfl
    · right
      simpa only [Machine.DropsNone, Classical.not_forall, Classical.not_not, exists_prop]
        using hnone
  · obtain ⟨t, rfl, ht⟩ := (Option.any_eq_true _ _).mp hstopped
    rw [decide_eq_true_eq] at ht
    cases hbody : script.program.body with
    | nil =>
      have hend : e.execute script b (some t) moduleText = .ok () (b.machine (some t)) := by
        unfold execute
        rw [hbody]
        rfl
      have hm : m = b.machine (some t) := congrArg leftBy hend
      exact ⟨by rw [hm]; rfl, by rw [hr, hm]; rfl, fun hne => absurd rfl hne⟩
    | cons s rest =>
      obtain ⟨n, hend, htime, hwrites, hreply⟩ := e.execute_of_stopped script b moduleText ht hbody
      have hm : m = n := congrArg leftBy hend
      refine ⟨hm ▸ hwrites, by rw [hr, hm, hreply], fun _ => ?_⟩
      rw [hr, hend, ← htime]
      rfl

/-- The script of a text, for statements about fixed scripts. -/
def probeScript (text : String) : CompiledScript :=
  match Dispatcher.probe.engine.compile (text.toList.map fun c => UInt8.ofNat c.toNat) with
  | .ok script => script
  | .error _ => default

/-- Bindings with the outputs of the probe. -/
def probeBindings : Bindings := ⟨.null, [], Dispatcher.probeSchema.reply⟩

/-- A script that is stopped in a function which it calls on the reply object. -/
def methodScript : CompiledScript :=
  probeScript "fn note() \x7b this.note = \"in\"; loop \x7b \x7d \x7d reply.note();"

/-- Inside of the function the variable of the reply object is out of sight, and what was written
there is not in it yet. The reply is what it holds when the function is left. -/
theorem run_halted_in_method :
    ∃ m, leftBy (Dispatcher.probe.engine.execute methodScript probeBindings (some 5000)
        fun _ => none) = m ∧
      ∃ h ∈ m.halts,
        (Dispatcher.probe.engine.run methodScript probeBindings (some 5000) fun _ => none).outcome =
          .error (.interrupted m.time) ∧
        (Dispatcher.probe.engine.replyAt? methodScript (fun _ => none) m h).any fun reply =>
          (reply.get? "note").any (Json.same (.string "in")) := by
  have hsize : 0 < (leftBy (Dispatcher.probe.engine.execute methodScript probeBindings (some 5000)
      fun _ => none)).halts.size := by decide +kernel
  have hdropped : (leftBy (Dispatcher.probe.engine.execute methodScript probeBindings (some 5000)
      fun _ => none)).dropped.size = 0 := by decide +kernel
  have hwritten : ((Dispatcher.probe.engine.run methodScript probeBindings (some 5000)
      fun _ => none).script.reply).any fun reply =>
        (reply.get? "note").any (Json.same (.string "in")) := by decide +kernel
  obtain ⟨-, hhalts, -⟩ := Dispatcher.probe.engine.run_halted methodScript probeBindings (some 5000)
    (fun _ => none) rfl
  generalize leftBy (Dispatcher.probe.engine.execute methodScript probeBindings (some 5000)
    fun _ => none) = m at *
  generalize Dispatcher.probe.engine.run methodScript probeBindings (some 5000)
    (fun _ => none) = r at *
  refine ⟨m, rfl, m.halts[0], Array.getElem_mem hsize, ?_⟩
  obtain ⟨houtcome, -, hreply⟩ | ⟨f, hf, -⟩ := hhalts _ (Array.getElem_mem hsize)
  · rw [hreply] at hwritten
    exact ⟨houtcome, hwritten⟩
  · rw [Array.size_eq_zero_iff.mp hdropped] at hf
    exact absurd hf (Array.not_mem_empty f)

end Engine

end ScriptedActions.Script
