import ScriptedActions.Proofs.Dispatch

/-!
# Scripts without limits

What becomes of a script that succeeds under limits when they are dropped: it compiles, and its run is
the same run, as long as no limit was reached on the way and no fault about a limit was lost.

A run can lose such a fault. Some functions that call back to the script pass over the faults of what
they call, a handler takes the faults of evaluated texts and of modules, and where something is closed
behind a fault that fails as well the second fault takes the place of the first. So the statement asks of
the run under limits that it dropped no such fault.

And a run without limits can meet a limit that it did not meet before. Nested calls are bounded where no
limit is set for them. This is the second way out, for limits that allow more.
-/

set_option autoImplicit false

namespace ScriptedActions.Script

/-! ## Faults that are not forgotten -/

/-- A kind of causes that no script takes for an ordinary one. -/
structure FatalKind where
  Holds : Cause → Prop
  fatal : ∀ c, Holds c → (Fault.here c .none).isFatal

namespace FatalKind

/-- What limits refuse. -/
def refusals (l : Limits) : FatalKind where
  Holds := l.Refuses
  fatal c h := by cases c <;> first | rfl | cases h

/-- Calls that are nested too deep. -/
def overflows : FatalKind where
  Holds c := c = .stackOverflow
  fatal c h := by rw [h]; rfl

variable (kind : FatalKind)

/-- A fault of a kind was raised, and is not forgotten. -/
def Remains (K : List Fault) (m : Machine) : Prop :=
  ∃ f, (f ∈ K ∨ f ∈ m.dropped) ∧ f.IsFor kind.Holds

variable {kind} {K K' : List Fault} {m n : Machine}

theorem Remains.mono (h : kind.Remains K m) (hK : ∀ f ∈ K, f ∈ K' ∨ f ∈ n.dropped)
    (hm : ∀ f ∈ m.dropped, f ∈ n.dropped) : kind.Remains K' n := by
  obtain ⟨f, hf | hf, hkind⟩ := h
  · exact ⟨f, hK f hf, hkind⟩
  · exact ⟨f, .inr (hm f hf), hkind⟩

end FatalKind

/-- The ledger of the faults of a kind. -/
def Ledger.ofKind (kind : FatalKind) : Ledger where
  Holds := kind.Remains
  perm hK h := h.mono (fun _ hf => .inl (hK.subset hf)) fun _ hf => hf
  quiet hmn h := h.mono (fun _ hf => .inl hf) fun _ hf => hmn.dropped ▸ hf
  raise _ h := h.mono (fun _ hf => .inl (.tail _ hf)) fun _ hf => hf
  rewrap hfg h := by
    obtain ⟨f, hf | hf, c, hc, hkind⟩ := h
    · rcases List.mem_cons.mp hf with rfl | hf
      · exact ⟨_, .inl (.head _), c, hfg.trans hc, hkind⟩
      · exact ⟨f, .inl (.tail _ hf), c, hc, hkind⟩
    · exact ⟨f, .inr hf, c, hc, hkind⟩
  drop h := by
    refine h.mono (fun g hg => ?_) fun g hg => Array.mem_push_of_mem _ hg
    rcases List.mem_cons.mp hg with rfl | hg
    · exact .inr Array.mem_push_self
    · exact .inl hg
  forget hordinary h := by
    obtain ⟨f, hf | hf, c, hc, hkind⟩ := h
    · rcases List.mem_cons.mp hf with rfl | hf
      · obtain ⟨d, hd, -, hnonfatal⟩ := hordinary
        cases hc.symm.trans hd
        exact absurd (kind.fatal c hkind) hnonfatal
      · exact ⟨f, .inl hf, c, hc, hkind⟩
    · exact ⟨f, .inr hf, c, hc, hkind⟩
  write _ _ _ h := h
  refuse _ _ _ h := h.mono (fun _ hf => .inl (.tail _ hf)) fun _ hf => hf
  halt _ _ h := h.mono (fun _ hf => .inl (.tail _ hf)) fun _ hf => hf

variable {α β : Type}

/-- A computation met a fault of a kind: it ended with one, or dropped one. -/
def Met (kind : FatalKind) (r : EStateM.Result Stop Machine α) : Prop :=
  (Ledger.ofKind kind).After [] [] r

/-- What becomes of an end when limits are dropped. -/
def Relaxed (l : Limits) (r r' : EStateM.Result Stop Machine α) : Prop :=
  r' = r ∨ Met (.refusals l) r ∨ Limits.defaultCallLevels < l.callLevels ∧ Met .overflows r'

/-- A computation does without limits what it does under them, unless it meets one. -/
structure Eval.Relaxes (x : Eval α) : Prop where
  keeps : ∀ kind, (Ledger.ofKind kind).Keeps x
  relaxed : ∀ s m, s.FoldsAlike → Relaxed s.limits (x.run s m) (x.run s.relaxed m)

theorem Met.of_endsFor (kind : FatalKind) {r : EStateM.Result Stop Machine α}
    (h : EndsFor kind.Holds r) : Met kind r := by
  obtain ⟨f, n, rfl, hf⟩ := h
  exact ⟨⟨f, .inl (.head _), hf⟩, nofun⟩

namespace Relaxed

variable {l : Limits} {r r' : EStateM.Result Stop Machine α}

theorem refl (r : EStateM.Result Stop Machine α) : Relaxed l r r := .inl rfl

/-- What comes behind. -/
theorem through {q q' : EStateM.Result Stop Machine β} (h : Relaxed l r r')
    (hsame : r' = r → Relaxed l q q') (hmet : ∀ kind, Met kind r → Met kind q)
    (hmet' : ∀ kind, Met kind r' → Met kind q') : Relaxed l q q' := by
  rcases h with h | h | ⟨hcalls, h⟩
  · exact hsame h
  · exact .inr (.inl (hmet _ h))
  · exact .inr (.inr ⟨hcalls, hmet' _ h⟩)

end Relaxed

namespace Eval.Relaxes

theorem unrecorded {x : Eval α} (hx : x.Unrecorded) : x.Relaxes :=
  ⟨fun _ => .unrecorded hx, fun s m _ => .inl (hx.limits s .unlimited m)⟩

theorem quiet {x : Eval α} (hx : x.Quiet) : x.Relaxes := unrecorded hx.toUnrecorded

theorem fault (c : Cause) (p : Place) : (Eval.fault c p : Eval α).Relaxes :=
  ⟨fun _ => .fault c p, fun _ _ _ => .refl _⟩

theorem jump (j : Jump) : (Eval.jump j : Eval α).Relaxes :=
  ⟨fun _ => .jump j, fun _ _ _ => .refl _⟩

theorem bind {x : Eval α} {f : α → Eval β} (hx : x.Relaxes) (hf : ∀ a, (f a).Relaxes) :
    (x >>= f).Relaxes := by
  refine ⟨fun kind => .bind (hx.keeps kind) fun a => (hf a).keeps kind, fun s m hs => ?_⟩
  refine (hx.relaxed s m hs).through (fun hsame => ?_) (fun kind h => h.bind fun a => (hf a).keeps kind)
    fun kind h => h.bind fun a => (hf a).keeps kind
  rw [run_bind, run_bind, hsame]
  cases x.run s m with
  | ok a n => exact (hf a).relaxed s n hs
  | error e n => exact .refl _

/-- An operation is refused, or counted without limits as well. -/
theorem run_tick (p : Place) (s : Surroundings) (m : Machine) :
    EndsFor s.limits.Refuses ((Eval.tick p).run s m) ∨
      (Eval.tick p).run s.relaxed m = (Eval.tick p).run s m := by
  unfold Eval.tick
  dsimp only
  by_cases hlimit : (s.limits.operations ≠ 0 && s.limits.operations < m.operations + 1) = true
  · rw [if_pos hlimit]
    exact .inl ⟨_, _, rfl, _, rfl, trivial⟩
  · rw [if_neg hlimit]
    exact .inr rfl

theorem tick (p : Place) : (Eval.tick p).Relaxes := by
  refine ⟨fun _ => .tick p, fun s m _ => ?_⟩
  rcases run_tick p s m with hrefused | hsame
  · exact .inr (.inl (.of_endsFor (.refusals s.limits) hrefused))
  · exact .inl hsame

theorem run_writes {x : Eval α} (hx : x.Writes) (s : Surroundings) (m : Machine) :
    x.run s.relaxed m = x.run s m := by
  induction hx generalizing m with
  | fault c p => rfl
  | writeOutput n field value p => rfl
  | looks _ ih => exact ih _ m
  | quietly _ hf ih =>
    rw [run_bind, run_bind, ih]
    split
    · exact (hf _).limits s .unlimited _
    · rfl

theorem write {x : Eval α} (p : Place) (hx : x.Writes) : (Eval.tick p >>= fun _ => x).Relaxes := by
  refine ⟨fun _ => .write p hx, fun s m _ => ?_⟩
  rw [run_bind, run_bind]
  rcases run_tick p s m with ⟨f, n, hr, hf⟩ | hsame
  · rw [hr]
    exact .inr (.inl (.of_endsFor (.refusals s.limits) ⟨f, n, rfl, hf⟩))
  · rw [hsame]
    split
    · exact .inl (run_writes hx s _)
    · exact .refl _

theorem limited {k : Surroundings → Eval α} (hk : ∀ s, (k s).Relaxes) (hl : Limited k) :
    (Eval.surroundings >>= k).Relaxes := by
  refine ⟨fun kind => .limited fun s => (hk s).keeps kind, fun s m hs => ?_⟩
  rcases hl s m hs with hsame | hrefused | ⟨hcalls, hoverflow⟩
  · have h := (hk s).relaxed s m hs
    rw [← hsame] at h
    exact h
  · exact .inr (.inl (.of_endsFor (.refusals s.limits) hrefused))
  · exact .inr (.inr ⟨hcalls, .of_endsFor .overflows hoverflow⟩)

theorem under {x : Eval α} {f : Surroundings → Surroundings} (hf : Surroundings.Keeps f)
    (hx : x.Relaxes) : (x.under f).Relaxes := by
  refine ⟨fun kind => .under f (hx.keeps kind), fun s m hs => ?_⟩
  have h := hx.relaxed (f s) m (hf.foldsAlike hs)
  rw [hf.sameLimits, ← hf.relaxed] at h
  exact h

theorem andThen {x : Eval α} {after : Eval Unit} (hx : x.Relaxes) (ha : after.Relaxes) :
    (x.andThen after).Relaxes := by
  refine ⟨fun kind => .andThen (hx.keeps kind) (ha.keeps kind), fun s m hs => ?_⟩
  refine (hx.relaxed s m hs).through (fun hsame => ?_) (fun kind h => h.andThen (ha.keeps kind))
    fun kind h => h.andThen (ha.keeps kind)
  rw [run_andThen, run_andThen, hsame]
  rcases x.run s m with ⟨a, n⟩ | ⟨(f | j), n⟩
  all_goals
    dsimp only
    refine (ha.relaxed s n hs).through (fun hsame => ?_) (fun kind h => ?_) fun kind h => ?_
    · rw [hsame]
      exact .refl _
  all_goals
    generalize after.run _ n = r at h
    rcases r with ⟨u, o⟩ | ⟨(g | j), o⟩
    all_goals first
      | exact h
      | exact ⟨h.holds.mono nofun fun _ hf => hf, nofun⟩
      | exact ⟨h.holds.mono (fun _ hg => .inl hg) fun _ hf => Array.mem_push_of_mem _ hf, nofun⟩

theorem close (c : Closing) : (Eval.close c).Relaxes := Eval.close_of .quiet .fault .bind c

theorem closing {x : Eval α} (c : Closing) (hx : x.Relaxes) : (x.closing c).Relaxes :=
  bind (unrecorded (unrecorded_noteOpen c)) fun outer =>
    andThen hx (bind (unrecorded (unrecorded_setOpen outer)) fun _ => close c)

theorem mapFault {x : Eval α} {f : Fault → Fault} (hf : ∀ e, (f e).root? = e.root?)
    (hx : x.Relaxes) : (x.mapFault f).Relaxes := by
  refine ⟨fun kind => .mapFault hf (hx.keeps kind), fun s m hs => ?_⟩
  refine (hx.relaxed s m hs).through (fun hsame => .inl ?_) (fun kind h => h.mapFault hf)
    fun kind h => h.mapFault hf
  rw [run_mapFault, run_mapFault, hsame]

theorem landing {x : Eval α} (hx : x.Relaxes) : x.landing.Relaxes := by
  refine ⟨fun kind => .landing (hx.keeps kind), fun s m hs => ?_⟩
  refine (hx.relaxed s m hs).through (fun hsame => .inl ?_) (fun kind h => h.landing)
    fun kind h => h.landing
  rw [run_landing, run_landing, hsame]

/-- What is looked for is ordinary, so no fault of a kind is forgotten. -/
theorem catching {x : Eval α} {kind : Fault → Option β}
    (hk : ∀ e, (kind e).isSome → e.IsOrdinary) (hx : x.Relaxes) : (x.catching kind).Relaxes := by
  refine ⟨fun _ => .catching hk (hx.keeps _), fun s m hs => ?_⟩
  refine (hx.relaxed s m hs).through (fun hsame => .inl ?_) (fun _ h => h.catching hk)
    fun _ h => h.catching hk
  rw [run_catching, run_catching, hsame]

theorem value? {x : Eval α} (hx : x.Relaxes) : x.value?.Relaxes := by
  refine ⟨fun kind => .value? (hx.keeps kind), fun s m hs => ?_⟩
  refine (hx.relaxed s m hs).through (fun hsame => .inl ?_) (fun kind h => h.value?)
    fun kind h => h.value?
  rw [run_value?, run_value?, hsame]

theorem handling {x : Eval α} {handler : Fault → Eval (Except Place α)} (hx : x.Relaxes)
    (hh : ∀ e, (handler e).Relaxes) : (x.handling handler).Relaxes := by
  refine ⟨fun kind => .handling (hx.keeps kind) fun e => (hh e).keeps kind, fun s m hs => ?_⟩
  refine (hx.relaxed s m hs).through (fun hsame => ?_)
    (fun kind h => h.handling fun e => (hh e).keeps kind)
    fun kind h => h.handling fun e => (hh e).keeps kind
  rw [run_handling, run_handling, hsame]
  rcases x.run s m with ⟨a, n⟩ | ⟨(f | j), n⟩
  · exact .refl _
  · dsimp only
    split
    · exact .refl _
    generalize { n with dropped := n.dropped.push f } = n'
    refine ((hh f).relaxed s n' hs).through (fun hsame => ?_) (fun kind h => ?_) fun kind h => ?_
    · rw [hsame]
      exact .refl _
    all_goals
      generalize (handler f).run _ n' = r at h
      rcases r with ⟨(p | a), o⟩ | ⟨e, o⟩
      · exact ⟨h.holds.mono nofun fun _ hf => hf, nofun⟩
      · exact h
      · cases e <;> exact h
  · exact .refl _

end Eval.Relaxes

/-- The discipline of what limits only keep from going on. -/
def Discipline.relaxing : Discipline where
  Holds := Eval.Relaxes
  quiet := .quiet
  bind := .bind
  fault := .fault
  jump := .jump
  tick := .tick
  write := .write
  limited := .limited
  under := .under
  closing := .closing
  mapFault := .mapFault
  landing := .landing
  catching := .catching
  value? := .value?
  handling := .handling

/-! ## Scripts -/

/-- A run ended with a fault of some kind, or passed over one. -/
def Meets (P : Cause → Prop) (r : EStateM.Result Stop Machine α) : Prop :=
  EndsFor P r ∨ ∃ f ∈ (leftBy r).dropped, f.IsFor P

theorem Met.meets {kind : FatalKind} {r : EStateM.Result Stop Machine α} (h : Met kind r) :
    Meets kind.Holds r := by
  rcases r with ⟨a, n⟩ | ⟨(f | j), n⟩
  · obtain ⟨⟨f, hf | hf, hkind⟩, -⟩ := h
    · cases hf
    · exact .inr ⟨f, hf, hkind⟩
  · obtain ⟨⟨g, hg | hg, hkind⟩, -⟩ := h
    · obtain rfl := List.mem_singleton.mp hg
      exact .inl ⟨g, n, rfl, hkind⟩
    · exact .inr ⟨g, hg, hkind⟩
  · obtain ⟨⟨f, hf | hf, hkind⟩, -⟩ := h
    · cases hf
    · exact .inr ⟨f, hf, hkind⟩

namespace Engine

/-- The engine that sets no limits. -/
def unlimited : Engine := ⟨.unlimited⟩

variable (e : Engine) (b : Bindings) (stopsAt : Option Nat) (moduleText : Path → Option String)

/-- A script that compiles under limits compiles without them; it may be simplified further. -/
theorem compile_unlimited {source : List UInt8} {script : CompiledScript}
    (h : e.compile source = .ok script) :
    ∃ program : Program, script = ⟨program.simplified e.limits, none⟩ ∧
      unlimited.compile source = .ok ⟨program.simplified .unlimited, none⟩ := by
  unfold compile at h ⊢
  split at h
  · cases h
  split at h
  · cases h
  case h_2 program hparse =>
    cases h
    refine ⟨program, rfl, ?_⟩
    rw [show unlimited.limits = .unlimited from rfl, Program.parse_unlimited hparse]

theorem execute_unlimited (script : CompiledScript)
    (h : (e.surroundings script.program moduleText).FoldsAlike) :
    Relaxed e.limits (e.execute script b stopsAt moduleText)
      (unlimited.execute script b stopsAt moduleText) :=
  (Discipline.relaxing.script script.program.body).relaxed _ (b.machine stopsAt) h

/-- **A script that succeeds under limits, without them.** It compiles, and if no limit decides how it
and its modules are simplified then the run without limits is the run under limits: it succeeds with the
same reply object, log and time. Two things can get in the way. The run under limits may have passed over
a refusal of a limit. And calls may be nested deeper than they can be where no limit is set for them:
this needs a limit that is greater. -/
theorem unlimited_run {source : List UInt8} {script : CompiledScript}
    (h : e.compile source = .ok script) :
    ∃ script', unlimited.compile source = .ok script' ∧
      (script'.program = script.program →
        (e.surroundings script.program moduleText).FoldsAlike →
        (e.run script b stopsAt moduleText).outcome = .ok () →
        unlimited.run script' b stopsAt moduleText = e.run script b stopsAt moduleText ∨
        (∃ f ∈ (leftBy (e.execute script b stopsAt moduleText)).dropped, f.IsFor e.limits.Refuses) ∨
        Limits.defaultCallLevels < e.limits.callLevels ∧
          Meets (· = .stackOverflow) (unlimited.execute script' b stopsAt moduleText)) := by
  obtain ⟨program, hscript, hcompiled⟩ := e.compile_unlimited h
  refine ⟨_, hcompiled, fun hprogram hfolds hok => ?_⟩
  obtain rfl : (⟨program.simplified .unlimited, none⟩ : CompiledScript) = script := by
    rw [hscript] at hprogram ⊢
    exact congrArg (CompiledScript.mk · none) hprogram
  cases hrefusal : b.refusal? with
  | some refused =>
    rw [e.run_of_refusal _ b stopsAt moduleText hrefusal] at hok
    cases hok
  | none =>
    rw [e.run_of_accepted _ b stopsAt moduleText hrefusal] at hok
    rw [e.run_of_accepted _ b stopsAt moduleText hrefusal,
      unlimited.run_of_accepted _ b stopsAt moduleText hrefusal]
    rcases e.execute_unlimited b stopsAt moduleText _ hfolds with hsame | hmet | ⟨hcalls, hmet⟩
    · left
      rw [hsame]
    · right
      left
      refine hmet.meets.resolve_left ?_
      rintro ⟨f, n, hr, -⟩
      rw [hr] at hok
      cases hok
    · exact .inr (.inr ⟨hcalls, hmet.meets⟩)

/-- Limits of everything but the length of texts, with a depth of calls. -/
def limitsWithCalls (n : Nat) : Limits := ⟨5000, n, 16, 16, 0, 8, 8⟩

/-- A script with a function that calls itself. -/
def nestedSource (depth : Nat) : List UInt8 :=
  ("fn f(n) \x7b if n <= 0 \x7b 0 \x7d else \x7b 1 + f(n - 1) \x7d \x7d reply.n = f(" ++
    toString depth ++ ");").toList.map fun c => UInt8.ofNat c.toNat

def nestedBindings : Bindings := ⟨.null, [], ⟨[("n", .int 0)]⟩⟩

/-- Whether the script compiles and its run succeeds without a fault on the way. -/
def succeeds (e : Engine) (depth : Nat) : Bool :=
  (e.compile (nestedSource depth)).toOption.any fun script =>
    (e.run script nestedBindings none fun _ => none).outcome.isOk &&
      (leftBy (e.execute script nestedBindings none fun _ => none)).dropped.isEmpty

/-- A script that succeeds under limits, and without them in the same way. -/
theorem unlimited_run_nested : ∃ script script',
    (⟨limitsWithCalls 64⟩ : Engine).compile (nestedSource 2) = .ok script ∧
    unlimited.compile (nestedSource 2) = .ok script' ∧
    unlimited.run script' nestedBindings none (fun _ => none) =
      (⟨limitsWithCalls 64⟩ : Engine).run script nestedBindings none fun _ => none := by
  have hprobe : succeeds ⟨limitsWithCalls 64⟩ 2 = true := by decide +kernel
  unfold succeeds at hprobe
  cases hscript : (⟨limitsWithCalls 64⟩ : Engine).compile (nestedSource 2) with
  | error e =>
    rw [hscript] at hprobe
    cases hprobe
  | ok script =>
    rw [hscript] at hprobe
    obtain ⟨hok, hdropped⟩ := Bool.and_eq_true_iff.mp (show (_ && _) = true from hprobe)
    obtain ⟨script', hscript', hrun⟩ := unlimited_run ⟨limitsWithCalls 64⟩ nestedBindings none
      (fun _ => none) hscript
    obtain ⟨program, rfl, hcompiled⟩ := compile_unlimited ⟨limitsWithCalls 64⟩ hscript
    have hprogram : script'.program = program.simplified (limitsWithCalls 64) := by
      rw [hcompiled] at hscript'
      cases hscript'
      exact (program.simplified_of_textSize rfl).symm
    have hsucceeds : ∀ {outcome : Except ScriptError Unit}, outcome.isOk → outcome = .ok () := by
      rintro (error | _) hok
      · cases hok
      · rfl
    refine ⟨_, script', rfl, hscript', ?_⟩
    rcases hrun hprogram (Surroundings.foldsAlike_of_textSize rfl) (hsucceeds hok) with
      hsame | ⟨f, hf, -⟩ | ⟨hcalls, -⟩
    · exact hsame
    · rw [Array.isEmpty_iff.mp hdropped] at hf
      exact absurd hf (Array.not_mem_empty f)
    · exact absurd hcalls (Nat.lt_irrefl 64)

/-- Where no limit is set for calls they cannot be nested as deep as a limit allows. -/
example : succeeds ⟨limitsWithCalls 128⟩ 66 = true ∧ succeeds unlimited 66 = false := by
  decide +kernel

end Engine

end ScriptedActions.Script
