import ScriptedActions.Proofs.Interpretation

/-!
# Ledgers

A ledger says something of the record of a run while some faults are under way: of the machine and
the list of the faults that were raised and have neither ended the run nor been dropped yet. Its
laws tell what happens to both: a fault is raised, changes on its way, is dropped or forgotten; a
write is made or refused; the run is told to stop.

Every ledger is a discipline (`Ledger.discipline`), so what it says at the begin of a run it says
at the end, with the fault that ended the run, if one did, as the only one under way
(`Ledger.holds_execute`).

**Why a list of faults.** While a fault is under way other computations run: what was declared is
forgotten, parts of values are put back, and both may raise faults of their own. The law for
`andThen` is about such a second computation, so a ledger has to speak of several faults at once.
-/

set_option autoImplicit false

namespace ScriptedActions.Script

/-! ## How a computation runs -/

/-- The machine that a computation leaves. -/
def leftBy {α : Type} : EStateM.Result Stop Machine α → Machine
  | .ok _ m | .error _ m => m

/-- A machine is another one but for what checks count. -/
def Machine.Counted (m n : Machine) : Prop :=
  n = { m with operations := n.operations, time := n.time, halts := n.halts }

namespace Machine.Counted

variable {m n o : Machine}

theorem refl (m : Machine) : m.Counted m := rfl

theorem trans (h : m.Counted n) (h' : n.Counted o) : m.Counted o := by
  rw [Counted] at h h' ⊢
  rw [h] at h'
  exact h'

theorem focus (h : m.Counted n) : n.focus = m.focus := by rw [h]

end Machine.Counted

/-- A run has used up its operations, or is told to stop. -/
def Machine.IsSpent (m : Machine) (s : Surroundings) : Prop :=
  s.limits.operations ≠ 0 ∧ s.limits.operations < m.operations ∨ m.stopsAt.any (· ≤ m.time)

namespace Eval

variable {α β : Type} (s : Surroundings) (m : Machine)

variable {s m} in
/-- An operation that is counted changes nothing but the counts. -/
theorem eq_of_tick {p : Place} {n : Machine} (h : (tick p).run s m = .ok () n) :
    n = { m with operations := m.operations + 1, time := m.time + tickTime } := by
  unfold tick at h
  dsimp only at h
  split at h
  · cases h
  split at h
  · cases h
  · cases h
    rfl

variable {s m} in
/-- An operation is counted only in a run that goes on. -/
theorem goes_of_tick {p : Place} {n : Machine} (h : (tick p).run s m = .ok () n) :
    n.stopsAt.any (· ≤ n.time) = false := by
  unfold tick at h
  dsimp only at h
  split at h
  · cases h
  split at h
  · cases h
  case isFalse hgoes =>
    cases h
    exact eq_false_of_ne_true hgoes

variable {s m} in
/-- An operation is counted, and that is all that happens, or the run may not go on. -/
theorem counted_tick (p : Place) :
    (∃ n, (tick p).run s m = .ok () n ∧ m.Counted n) ∨
    ∃ f n, (tick p).run s m = .error (.fault f) n ∧ m.Counted n ∧ f.isFatal ∧ n.IsSpent s := by
  unfold tick
  dsimp only
  split
  case isTrue hlimit => exact .inr ⟨_, _, rfl, rfl, rfl, .inl (by simpa using hlimit)⟩
  split
  case isTrue hstop => exact .inr ⟨_, _, rfl, rfl, rfl, .inr hstop⟩
  case isFalse => exact .inl ⟨_, rfl, rfl⟩

variable {s m} in
theorem run_focused {t : Target} (h : m.focus = some t) : focused.run s m = .ok t.value m := by
  simp only [focused, h, Option.elim]

theorem run_drop (f : Fault) :
    (drop f).run s m = .ok () { m with dropped := m.dropped.push f } := rfl

theorem run_outcome (x : Eval α) : x.outcome.run s m =
    match x.run s m with
    | .ok a n => .ok (.ok a) n
    | .error e n => .ok (.error e) n := rfl

theorem run_inPlaceOf (f : Fault) (x : Eval α) : (x.inPlaceOf f).run s m =
    match x.run s m with
    | .ok a n => .ok a n
    | .error e n => .error e { n with dropped := n.dropped.push f } := rfl

theorem run_andThen (x : Eval α) (after : Eval Unit) : (x.andThen after).run s m =
    match x.run s m with
    | .ok a n =>
      match after.run s n with
      | .ok _ o => .ok a o
      | .error e o => .error e o
    | .error (.fault f) n =>
      match after.run s n with
      | .ok _ o => .error (.fault f) o
      | .error e o => .error e { o with dropped := o.dropped.push f }
    | .error (.jump j) n =>
      match after.run s n with
      | .ok _ o => .error (.jump j) o
      | .error e o => .error e o := by
  simp only [andThen, run_bind, run_outcome]
  cases x.run s m with
  | ok a n =>
    dsimp only
    rw [run_bind]
    cases after.run s n <;> rfl
  | error e n =>
    cases e with
    | jump j =>
      dsimp only
      rw [run_bind]
      cases after.run s n <;> rfl
    | fault f =>
      dsimp only
      simp only [run_bind, inPlaceOf]
      cases after.run s n <;> rfl

theorem run_closing (x : Eval α) (c : Closing) : (x.closing c).run s m =
    match x.run s { m with pending := c :: m.pending } with
    | .ok a n =>
      match (close c).run s { n with pending := m.pending } with
      | .ok _ o => .ok a o
      | .error e o => .error e o
    | .error (.fault f) n =>
      match (close c).run s { n with pending := m.pending } with
      | .ok _ o => .error (.fault f) o
      | .error e o => .error e { o with dropped := o.dropped.push f }
    | .error (.jump j) n =>
      match (close c).run s { n with pending := m.pending } with
      | .ok _ o => .error (.jump j) o
      | .error e o => .error e o := by
  unfold closing
  rw [run_bind]
  exact run_andThen s _ x _

theorem run_mapFault (x : Eval α) (f : Fault → Fault) : (x.mapFault f).run s m =
    match x.run s m with
    | .ok a n => .ok a n
    | .error (.fault e) n => .error (.fault (f e)) n
    | .error (.jump j) n => .error (.jump j) n := rfl

theorem run_landing (x : Eval α) : x.landing.run s m =
    match x.run s m with
    | .ok a n => .ok (.ok a) n
    | .error (.jump j) n => .ok (.error j) n
    | .error (.fault f) n => .error (.fault f) n := rfl

theorem run_catching (x : Eval α) (kind : Fault → Option β) : (x.catching kind).run s m =
    match x.run s m with
    | .ok a n => .ok (.ok a) n
    | .error (.jump j) n => .error (.jump j) n
    | .error (.fault f) n =>
      match kind f with
      | some b => .ok (.error b) n
      | none => .error (.fault f) n := rfl

theorem run_value? (x : Eval α) : x.value?.run s m =
    match x.run s m with
    | .ok a n => .ok (some a) n
    | .error (.fault f) n => .ok none { n with dropped := n.dropped.push f }
    | .error (.jump _) n => .ok none n := by
  simp only [value?, run_bind, run_outcome]
  cases x.run s m with
  | ok a n => rfl
  | error e n => cases e <;> rfl

theorem run_handling (x : Eval α) (handler : Fault → Eval (Except Place α)) :
    (x.handling handler).run s m =
    match x.run s m with
    | .ok a n => .ok a n
    | .error (.jump j) n => .error (.jump j) n
    | .error (.fault f) n =>
      if f.isFatal then .error (.fault f) n
      else match (handler f).run s { n with dropped := n.dropped.push f } with
        | .ok (.ok a) o => .ok a o
        | .ok (.error p) o => .error (.fault (f.at_ p)) o
        | .error e o => .error e o := by
  simp only [handling, run_bind, run_outcome]
  cases x.run s m with
  | ok a n => rfl
  | error e n =>
    cases e with
    | jump j => rfl
    | fault f =>
      dsimp only
      split
      · rfl
      · simp only [run_bind, run_drop]
        cases (handler f).run s { n with dropped := n.dropped.push f } with
        | ok r o => cases r <;> rfl
        | error e o => rfl

end Eval

/-! ## Ledgers -/

/-- What is said of a machine while some faults are under way, and why it stays true. -/
structure Ledger where
  Holds : List Fault → Machine → Prop
  /-- It does not matter in which order the faults were raised. -/
  perm {K K' : List Fault} {m : Machine} : K.Perm K' → Holds K m → Holds K' m
  quiet {K : List Fault} {m n : Machine} : m.SameRecord n → Holds K m → Holds K n
  /-- Whatever fault is raised has gone wrong somewhere, or was raised before. -/
  raise {K : List Fault} {m : Machine} {f : Fault} :
    f.root?.isSome ∨ (∃ g ∈ m.dropped, g.root? = f.root?) → Holds K m → Holds (f :: K) m
  /-- On its way a fault keeps its root. -/
  rewrap {K : List Fault} {m : Machine} {f g : Fault} :
    g.root? = f.root? → Holds (f :: K) m → Holds (g :: K) m
  drop {K : List Fault} {m : Machine} {f : Fault} :
    Holds (f :: K) m → Holds K { m with dropped := m.dropped.push f }
  forget {K : List Fault} {m : Machine} {f : Fault} :
    f.IsOrdinary → Holds (f :: K) m → Holds K m
  /-- A write comes behind a check that let the run go on. -/
  write {K : List Fault} {m : Machine} {n : Nat} {field : String} {value : Json}
    {version r : ReplyObject} : m.versions[n]? = some version →
      version.set field value = .ok r → m.stopsAt.any (· ≤ m.time) = false → Holds K m →
      Holds K { m with versions := m.versions.push r, writes := m.writes.push ⟨n, field, value⟩ }
  refuse {K : List Fault} {m : Machine} {n : Nat} {field : String} {value : Json}
    {version : ReplyObject} {e : ReplyError} (p : Place) : m.versions[n]? = some version →
      version.set field value = .error e → Holds K m →
      Holds (.here (.raised (.undeclared m.attempts.size)) p :: K)
        { m with attempts := m.attempts.push field }
  halt {K : List Fault} {m : Machine} (p : Place) : m.stopsAt.any (· ≤ m.time) → Holds K m →
    Holds (.terminated p :: K) { m with halts := m.halts.push m.halt }

namespace Ledger

variable (L : Ledger) {α β : Type}

/-- What a ledger says, of a machine that remembers that some faults were dropped. -/
structure Says (K D : List Fault) (m : Machine) : Prop where
  holds : L.Holds K m
  dropped : ∀ f ∈ D, f ∈ m.dropped

namespace Says

variable {L} {K D : List Fault} {m n : Machine} {f g : Fault}

theorem perm {K' : List Fault} (hp : K.Perm K') (h : L.Says K D m) : L.Says K' D m :=
  ⟨L.perm hp h.holds, h.dropped⟩

theorem quiet (hmn : m.SameRecord n) (h : L.Says K D m) : L.Says K D n :=
  ⟨L.quiet hmn h.holds, hmn.dropped ▸ h.dropped⟩

theorem raise (hf : f.root?.isSome) (h : L.Says K D m) : L.Says (f :: K) D m :=
  ⟨L.raise (.inl hf) h.holds, h.dropped⟩

/-- A fault that was dropped comes again. -/
theorem again (hg : g ∈ D) (hf : g.root? = f.root?) (h : L.Says K D m) : L.Says (f :: K) D m :=
  ⟨L.raise (.inr ⟨g, h.dropped g hg, hf⟩) h.holds, h.dropped⟩

theorem rewrap (hg : g.root? = f.root?) (h : L.Says (f :: K) D m) : L.Says (g :: K) D m :=
  ⟨L.rewrap hg h.holds, h.dropped⟩

theorem drop (h : L.Says (f :: K) D m) :
    L.Says K (f :: D) { m with dropped := m.dropped.push f } := by
  refine ⟨L.drop h.holds, fun g hg => ?_⟩
  rcases List.mem_cons.mp hg with rfl | hg
  · exact Array.mem_push_self
  · exact Array.mem_push_of_mem f (h.dropped g hg)

theorem forget (hf : f.IsOrdinary) (h : L.Says (f :: K) D m) : L.Says K D m :=
  ⟨L.forget hf h.holds, h.dropped⟩

/-- Fewer faults are known to be dropped. -/
theorem fewer (h : L.Says K (f :: D) m) : L.Says K D m :=
  ⟨h.holds, fun g hg => h.dropped g (.tail f hg)⟩

end Says

/-- What a ledger says of the end of a computation. -/
def After (K D : List Fault) : EStateM.Result Stop Machine α → Prop
  | .ok _ n | .error (.jump _) n => L.Says K D n
  | .error (.fault f) n => L.Says (f :: K) D n

/-- What a ledger says stays true over a computation, and what was dropped stays dropped. -/
def Keeps (x : Eval α) : Prop := ∀ s m K D, L.Says K D m → L.After K D (x.run s m)

/-! ### What comes behind a computation -/

namespace After

variable {L} {K D : List Fault} {s : Surroundings} {m : Machine} {x : Eval α}
  (h : L.After K D (x.run s m))

include h

theorem bind {f : α → Eval β} (hf : ∀ a, L.Keeps (f a)) : L.After K D ((x >>= f).run s m) := by
  rw [Eval.run_bind]
  cases hr : x.run s m with
  | ok a n =>
    rw [hr] at h
    exact hf a s n K D h
  | error e n =>
    rw [hr] at h
    cases e <;> exact h

theorem andThen {after : Eval Unit} (ha : L.Keeps after) :
    L.After K D ((x.andThen after).run s m) := by
  rw [Eval.run_andThen]
  cases hr : x.run s m with
  | ok a n =>
    rw [hr] at h
    have h' := ha s n K D h
    dsimp only
    cases hr' : after.run s n with
    | ok u o => rw [hr'] at h'; exact h'
    | error e o => rw [hr'] at h'; cases e <;> exact h'
  | error e n =>
    rw [hr] at h
    cases e with
    | jump j =>
      have h' := ha s n K D h
      dsimp only
      cases hr' : after.run s n with
      | ok u o => rw [hr'] at h'; exact h'
      | error e o => rw [hr'] at h'; cases e <;> exact h'
    | fault f =>
      -- the first fault is under way while the second computation runs
      have h' := ha s n (f :: K) D h
      dsimp only
      cases hr' : after.run s n with
      | ok u o => rw [hr'] at h'; exact h'
      | error e o =>
        rw [hr'] at h'
        cases e with
        | jump j => exact (Says.drop h').fewer
        | fault g => exact (Says.drop (Says.perm (.swap f g K) h')).fewer

theorem mapFault {f : Fault → Fault} (hf : ∀ e, (f e).root? = e.root?) :
    L.After K D ((x.mapFault f).run s m) := by
  rw [Eval.run_mapFault]
  cases hr : x.run s m with
  | ok a n => rw [hr] at h; exact h
  | error e n =>
    rw [hr] at h
    cases e with
    | jump j => exact h
    | fault e => exact Says.rewrap (hf e) h

theorem landing : L.After K D (x.landing.run s m) := by
  rw [Eval.run_landing]
  cases hr : x.run s m with
  | ok a n => rw [hr] at h; exact h
  | error e n => rw [hr] at h; cases e <;> exact h

theorem catching {kind : Fault → Option β} (hk : ∀ e, (kind e).isSome → e.IsOrdinary) :
    L.After K D ((x.catching kind).run s m) := by
  rw [Eval.run_catching]
  cases hr : x.run s m with
  | ok a n => rw [hr] at h; exact h
  | error e n =>
    rw [hr] at h
    cases e with
    | jump j => exact h
    | fault f =>
      dsimp only
      split
      case h_1 b hb => exact Says.forget (hk f (by rw [hb]; rfl)) h
      case h_2 => exact h

theorem value? : L.After K D (x.value?.run s m) := by
  rw [Eval.run_value?]
  cases hr : x.run s m with
  | ok a n => rw [hr] at h; exact h
  | error e n =>
    rw [hr] at h
    cases e with
    | jump j => exact h
    | fault f => exact (Says.drop h).fewer

/-- The handler runs with the fault dropped, so the fault may come again after it. -/
theorem handling {handler : Fault → Eval (Except Place α)} (hh : ∀ e, L.Keeps (handler e)) :
    L.After K D ((x.handling handler).run s m) := by
  rw [Eval.run_handling]
  cases hr : x.run s m with
  | ok a n => rw [hr] at h; exact h
  | error e n =>
    rw [hr] at h
    cases e with
    | jump j => exact h
    | fault f =>
      dsimp only
      split
      · exact h
      have h' := hh f s _ K (f :: D) (Says.drop h)
      cases hr' : (handler f).run s { n with dropped := n.dropped.push f } with
      | ok r o =>
        rw [hr'] at h'
        cases r with
        | ok a => exact Says.fewer h'
        | error p => exact (Says.again (.head D) (f.root?_at p).symm h').fewer
      | error e o =>
        rw [hr'] at h'
        cases e <;> exact Says.fewer h'

end After

namespace Keeps

variable {L}

theorem unrecorded {x : Eval α} (hx : x.Unrecorded) : L.Keeps x := by
  intro s m K D h
  obtain ⟨a, n, hr, hmn, -⟩ := hx.ends s m
  rw [hr]
  exact h.quiet hmn

theorem quiet {x : Eval α} (hx : x.Quiet) : L.Keeps x := unrecorded hx.toUnrecorded

theorem bind {x : Eval α} {f : α → Eval β} (hx : L.Keeps x) (hf : ∀ a, L.Keeps (f a)) :
    L.Keeps (x >>= f) :=
  fun s m K D h => (hx s m K D h).bind hf

theorem fault (c : Cause) (p : Place) : L.Keeps (Eval.fault c p : Eval α) :=
  fun _ _ _ _ h => h.raise (f := .here c p) rfl

theorem jump (j : Jump) : L.Keeps (Eval.jump j : Eval α) := fun _ _ _ _ h => h

theorem tick (p : Place) : L.Keeps (Eval.tick p) := by
  intro s m K D h
  have h' : L.Says K D
      { m with operations := m.operations + 1, time := m.time + Eval.tickTime } :=
    .quiet (m := m) ⟨rfl, Nat.le_add_right _ _⟩ h
  unfold Eval.tick
  dsimp only
  split
  · exact h'.raise rfl
  · split
    case isTrue hstop => exact ⟨L.halt p hstop h'.holds, h'.dropped⟩
    case isFalse => exact h'

/-- What comes right behind a check that let the run go on. -/
theorem writes {x : Eval α} (hx : x.Writes) {s : Surroundings} {m : Machine} {K D : List Fault}
    (hgoes : m.stopsAt.any (· ≤ m.time) = false) (h : L.Says K D m) : L.After K D (x.run s m) := by
  induction hx generalizing m with
  | fault c p => exact h.raise (f := .here c p) rfl
  | writeOutput n field value p =>
    unfold Eval.writeOutput
    dsimp only
    split
    case h_1 => exact h.raise rfl
    case h_2 version hn =>
      split
      case h_1 r hr => exact ⟨L.write hn hr hgoes h.holds, h.dropped⟩
      case h_2 e he => exact ⟨L.refuse p hn he h.holds, h.dropped⟩
  | looks _ ih => exact ih _ hgoes h
  | quietly _ hf ih =>
    rename_i x f _
    have h' := ih hgoes h
    rw [Eval.run_bind]
    cases hr : x.run s m with
    | ok a n =>
      rw [hr] at h'
      exact quiet (hf a) s n K D h'
    | error e n =>
      rw [hr] at h'
      cases e <;> exact h'

theorem write {x : Eval α} (p : Place) (hx : x.Writes) : L.Keeps (Eval.tick p >>= fun _ => x) := by
  intro s m K D h
  have h' := tick p s m K D h
  rw [Eval.run_bind]
  cases hr : (Eval.tick p).run s m with
  | ok u n =>
    rw [hr] at h'
    exact writes hx (Eval.goes_of_tick hr) h'
  | error e n =>
    rw [hr] at h'
    cases e <;> exact h'

theorem limited {k : Surroundings → Eval α} (hk : ∀ s, L.Keeps (k s)) :
    L.Keeps (Eval.surroundings >>= k) :=
  fun s m => hk s s m

theorem under {x : Eval α} (f : Surroundings → Surroundings) (hx : L.Keeps x) :
    L.Keeps (x.under f) :=
  fun s m => hx (f s) m

theorem andThen {x : Eval α} {after : Eval Unit} (hx : L.Keeps x) (ha : L.Keeps after) :
    L.Keeps (x.andThen after) :=
  fun s m K D h => (hx s m K D h).andThen ha

theorem close (c : Closing) : L.Keeps (Eval.close c) := Eval.close_of .quiet .fault .bind c

theorem closing {x : Eval α} (c : Closing) (hx : L.Keeps x) : L.Keeps (x.closing c) :=
  bind (unrecorded (Eval.unrecorded_noteOpen c)) fun outer =>
    andThen hx (bind (unrecorded (Eval.unrecorded_setOpen outer)) fun _ => close c)

theorem mapFault {x : Eval α} {f : Fault → Fault} (hf : ∀ e, (f e).root? = e.root?)
    (hx : L.Keeps x) : L.Keeps (x.mapFault f) :=
  fun s m K D h => (hx s m K D h).mapFault hf

theorem landing {x : Eval α} (hx : L.Keeps x) : L.Keeps x.landing :=
  fun s m K D h => (hx s m K D h).landing

theorem catching {x : Eval α} {kind : Fault → Option β}
    (hk : ∀ e, (kind e).isSome → e.IsOrdinary) (hx : L.Keeps x) : L.Keeps (x.catching kind) :=
  fun s m K D h => (hx s m K D h).catching hk

theorem value? {x : Eval α} (hx : L.Keeps x) : L.Keeps x.value? :=
  fun s m K D h => (hx s m K D h).value?

theorem handling {x : Eval α} {handler : Fault → Eval (Except Place α)} (hx : L.Keeps x)
    (hh : ∀ e, L.Keeps (handler e)) : L.Keeps (x.handling handler) :=
  fun s m K D h => (hx s m K D h).handling hh

end Keeps

/-- Every ledger is a discipline. -/
def discipline : Discipline where
  Holds := L.Keeps
  quiet := .quiet
  bind := .bind
  fault := .fault
  jump := .jump
  tick := .tick
  write := .write
  limited hk _ := .limited hk
  under _ := .under _
  closing := .closing
  mapFault := .mapFault
  landing := .landing
  catching := .catching
  value? := .value?
  handling := .handling

/-- **What a ledger says at the begin of a run it says at its end.** -/
theorem execute (e : Engine) (script : CompiledScript) (b : Bindings) (stopsAt : Option Nat)
    (moduleText : Path → Option String) (h : L.Holds [] (b.machine stopsAt)) :
    L.After [] [] (e.execute script b stopsAt moduleText) :=
  L.discipline.script script.program.body _ _ [] [] ⟨h, nofun⟩

end Ledger

end ScriptedActions.Script
