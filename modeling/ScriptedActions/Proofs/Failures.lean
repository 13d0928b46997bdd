import ScriptedActions.Proofs.Halts
import ScriptedActions.Proofs.Integers
import ScriptedActions.Proofs.UndeclaredWrites

/-!
# What a failure means

A run that fails does so in one of three ways, and two of them say something of the run: that a
write to an undeclared output was attempted, and that the run was told to stop. A script can throw
any value, throw again what it caught, and wrap a fault in calls and modules. It cannot make a
failure mean something that did not happen.

**Where the two come from.** What tells them apart is the root of the fault that ends the run
(`Fault.root?`), and on its way a fault keeps its root. The root of a refused write carries the
number of the attempt, and the record of the run has the name of the output under that number. An
interruption has no root, and only a check raises such a fault: that is the ledger `Ledger.checks`,
which reads `Ledger.interruptions` the other way round.
-/

set_option autoImplicit false

namespace ScriptedActions.Script

/-! ## Interruptions come from checks -/

/-- If there is an interruption, under way or dropped, then a check told the run to stop. -/
def Checked (K : List Fault) (m : Machine) : Prop :=
  ∀ f, f ∈ K ∨ f ∈ m.dropped → f.IsInterruption → 0 < m.halts.size

namespace Checked

variable {K K' : List Fault} {m n : Machine}

/-- Faults may be found elsewhere than before, as long as none is new that is an interruption. -/
theorem refound (h : Checked K m) (hhalts : m.halts.size ≤ n.halts.size)
    (hK : ∀ f, f ∈ K' ∨ f ∈ n.dropped → f.IsInterruption →
      ∃ g, (g ∈ K ∨ g ∈ m.dropped) ∧ g.IsInterruption) : Checked K' n := by
  intro f hf hi
  obtain ⟨g, hg, hi'⟩ := hK f hf hi
  exact Nat.lt_of_lt_of_le (h g hg hi') hhalts

end Checked

/-- The ledger of what interruptions come from. -/
def Ledger.checks : Ledger where
  Holds := Checked
  perm hp h := h.refound (Nat.le_refl _) fun f hf hi => ⟨f, hf.imp_left hp.mem_iff.mpr, hi⟩
  quiet hmn h := h.refound (Nat.le_of_eq (congrArg (·.halts.size) hmn.record.symm))
    fun f hf hi => ⟨f, hf.imp_right (hmn.dropped ▸ ·), hi⟩
  raise {_ m f} hf h := h.refound (Nat.le_refl _) fun g hg hi => by
    rcases hg with hg | hg
    · rcases List.mem_cons.mp hg with rfl | hg
      · -- what has no root was dropped before
        rcases hf with hroot | ⟨k, hk, hroot⟩
        · rw [show g.root? = none from hi] at hroot
          cases hroot
        · exact ⟨k, .inr hk, hroot.trans hi⟩
      · exact ⟨g, .inl hg, hi⟩
    · exact ⟨g, .inr hg, hi⟩
  rewrap {_ _ f g} hfg h := h.refound (Nat.le_refl _) fun k hk hi => by
    rcases hk with hk | hk
    · rcases List.mem_cons.mp hk with rfl | hk
      · exact ⟨f, .inl (.head _), hfg.symm.trans hi⟩
      · exact ⟨k, .inl (.tail _ hk), hi⟩
    · exact ⟨k, .inr hk, hi⟩
  drop {_ _ f} h := h.refound (Nat.le_refl _) fun k hk hi => by
    rcases hk with hk | hk
    · exact ⟨k, .inl (.tail _ hk), hi⟩
    · rcases Array.mem_push.mp hk with hk | rfl
      · exact ⟨k, .inr hk, hi⟩
      · exact ⟨k, .inl (.head _), hi⟩
  forget _ h := h.refound (Nat.le_refl _) fun k hk hi => ⟨k, hk.imp_left (.tail _), hi⟩
  write _ _ _ h := h
  refuse p _ _ h := h.refound (Nat.le_refl _) fun k hk hi => by
    rcases hk with hk | hk
    · rcases List.mem_cons.mp hk with rfl | hk
      · cases hi
      · exact ⟨k, .inl hk, hi⟩
    · exact ⟨k, .inr hk, hi⟩
  halt _ _ _ := fun _ _ _ => by simp

/-! ## What scripts throw and catch -/

section Thrown

variable {go : Go} {s : Surroundings} {m n : Machine} {e : Expr} {p : Place} {v : Value}

/-- A script throws what it is told to throw, whatever it is. -/
theorem run_throw (h : (Eval.tick p >>= fun _ => evalArg go e).run s m = .ok v n) :
    (evalStmt go (.raise (some e) p)).run s m = .error (.fault (.here (.raised v) p)) n := by
  have hthrow : evalStmt go (.raise (some e) p) =
      Eval.tick p >>= fun _ => evalArg go e >>= fun v => Eval.fault (.raised v) p := rfl
  rw [hthrow]
  rw [Eval.run_bind] at h ⊢
  cases htick : (Eval.tick p).run s m with
  | error stop o =>
    rw [htick] at h
    cases h
  | ok u o =>
    rw [htick] at h
    dsimp only at h ⊢
    rw [Eval.run_bind, h]
    rfl

/-- What a script catches is what was thrown. The refusal of a write is caught only where a write
was refused; all other faults are described by an object map. -/
theorem Fault.caught_eq_undeclared {source : String} {f : Fault} {k : Nat}
    (h : f.caught source = .undeclared k) : f.IsRefusal k := by
  unfold Fault.caught at h
  split at h
  case h_1 v hroot =>
    rw [h] at hroot
    exact hroot
  case h_2 => cases h

end Thrown

/-! ## The meaning of failures -/

namespace Engine

/-- A run is interrupted exactly if an interruption ends it. -/
theorem verdict_eq_interrupted (result : EStateM.Result Stop Machine Unit) (elapsed : Nat) :
    verdict result = .error (.interrupted elapsed) ↔
      ∃ f m, result = .error (.fault f) m ∧ f.IsInterruption ∧ m.time = elapsed := by
  constructor
  · intro h
    unfold verdict at h
    split at h
    case h_1 f m =>
      unfold Machine.classify at h
      split at h
      case h_1 hroot =>
        cases h
        exact ⟨f, m, rfl, hroot, rfl⟩
      case h_2 => split at h <;> cases h
      case h_3 => cases h
    · cases h
    · cases h
  · rintro ⟨f, m, rfl, hf, rfl⟩
    simp only [verdict, Machine.classify, show f.root? = none from hf]

/-- Any other fault is one of the script, and the report is what it says of itself. -/
theorem classify_of_root {f : Fault} {c : Cause} (hroot : f.root? = some c)
    (hc : ∀ n, c ≠ .raised (.undeclared n)) (m : Machine) : m.classify f = .runtime f.message := by
  unfold Machine.classify
  rw [hroot]
  split
  case h_1 heq => cases heq
  case h_2 n heq =>
    cases heq
    exact absurd rfl (hc n)
  case h_3 => rfl

variable (e : Engine) (script : CompiledScript) (b : Bindings) (stopsAt : Option Nat)
  (moduleText : Path → Option String)

/-- **If an interruption ends a run, a check told the run to stop.** -/
theorem halted_of_interruption {f : Fault} {m : Machine}
    (h : e.execute script b stopsAt moduleText = .error (.fault f) m) (hf : f.IsInterruption) :
    0 < m.halts.size := by
  have hafter := Ledger.checks.execute e script b stopsAt moduleText (by
    intro g hg
    simp [Bindings.machine] at hg)
  rw [h] at hafter
  exact hafter.holds f (.inl (.head _)) hf

/-- The moment at which a run is told to stop stays what it was. -/
theorem stopsAt_execute :
    (leftBy (e.execute script b stopsAt moduleText)).stopsAt = stopsAt :=
  ((Discipline.timely.script script.program.body).later
    (e.surroundings script.program moduleText) (b.machine stopsAt)).stopsAt

/-- A run that was begun fails as what it came to says, and one that was refused fails otherwise. -/
theorem verdict_of_run {error : ScriptError}
    (h : (e.run script b stopsAt moduleText).outcome = .error error)
    (hbinding : ∀ name reason, error ≠ .binding name reason) :
    verdict (e.execute script b stopsAt moduleText) = .error error := by
  cases hrefusal : b.refusal? with
  | some refused =>
    obtain ⟨_, name, _, _, n, -, -, -, -, rfl⟩ := Bindings.refusal?_eq_some hrefusal
    rw [e.run_of_refusal script b stopsAt moduleText hrefusal] at h
    cases h
    exact absurd rfl (hbinding name _)
  | none =>
    rw [e.run_of_accepted script b stopsAt moduleText hrefusal] at h
    exact h

/-- **A script cannot make a failure mean what did not happen.** A run fails with the name of an
output only if that output is not declared and the script attempted to write it, and it fails as
interrupted only if a check of the run told it to stop. Whatever else a script throws, or throws
again, perhaps inside of calls and modules, makes a run fail with the report of the outermost fault.
A script throws any value as it is, and catches the refusal of a write only where one was
refused. -/
theorem failures_are_true :
    (∀ field, (e.run script b stopsAt moduleText).outcome = .error (.undeclaredOutput field) →
      b.reply.contains field = false ∧
        ∃ n f m, e.execute script b stopsAt moduleText = .error (.fault f) m ∧ f.IsRefusal n ∧
          m.attempts[n]? = some field) ∧
    (∀ elapsed, (e.run script b stopsAt moduleText).outcome = .error (.interrupted elapsed) →
      0 < (leftBy (e.execute script b stopsAt moduleText)).halts.size ∧
        ∃ t, stopsAt = some t ∧ t ≤ elapsed) ∧
    (∀ f m, b.refusal? = none → e.execute script b stopsAt moduleText = .error (.fault f) m →
      (∀ c, f.root? = some c → (∀ n, c ≠ .raised (.undeclared n)) →
        (e.run script b stopsAt moduleText).outcome = .error (.runtime f.message))) ∧
    (∀ go x p v s m n, (Eval.tick p >>= fun _ => evalArg go x).run s m = .ok v n →
      (evalStmt go (.raise (some x) p)).run s m = .error (.fault (.here (.raised v) p)) n) ∧
    ∀ (f : Fault) source k, f.caught source = .undeclared k → f.IsRefusal k := by
  refine ⟨fun field hfield => ?_, fun elapsed helapsed => ?_, fun f m hb hend c hroot hc => ?_,
    fun go x p v s m n => run_throw, fun f source k => Fault.caught_eq_undeclared⟩
  · have hverdict := e.verdict_of_run script b stopsAt moduleText hfield nofun
    obtain ⟨n, f, m, hend, hf, hn⟩ := (verdict_eq_undeclaredOutput _ field).mp hverdict
    have hattempt : (leftBy (e.execute script b stopsAt moduleText)).attempts[n]? = some field := by
      rw [hend]
      exact hn
    exact ⟨(e.refused_execute script b stopsAt moduleText hattempt).1, n, f, m, hend, hf, hn⟩
  · have hverdict := e.verdict_of_run script b stopsAt moduleText helapsed nofun
    obtain ⟨f, m, hend, hf, rfl⟩ := (verdict_eq_interrupted _ elapsed).mp hverdict
    have hhalts : 0 < (leftBy (e.execute script b stopsAt moduleText)).halts.size := by
      rw [hend]
      exact e.halted_of_interruption script b stopsAt moduleText hend hf
    obtain ⟨-, hdue⟩ := e.versions_execute script b stopsAt moduleText (Array.getElem_mem hhalts)
    rw [stopsAt_execute, hend] at hdue
    obtain ⟨t, ht, hle⟩ := (Option.any_eq_true _ _).mp hdue
    exact ⟨hhalts, t, ht, of_decide_eq_true hle⟩
  · rw [e.run_of_accepted script b stopsAt moduleText hb]
    show verdict (e.execute script b stopsAt moduleText) = _
    rw [hend]
    exact congrArg Except.error (classify_of_root hroot hc m)

/-- The text that ended a run, if one was thrown and did. -/
def thrown? : EStateM.Result Stop Machine Unit → Option String
  | .error (.fault f) _ =>
    match f.root? with
    | some (.raised (.text t)) => some t
    | _ => none
  | _ => none

theorem thrown?_eq_some {result : EStateM.Result Stop Machine Unit} {t : String}
    (h : thrown? result = some t) :
    ∃ f m, result = .error (.fault f) m ∧ f.root? = some (.raised (.text t)) := by
  unfold thrown? at h
  split at h
  case h_1 f m =>
    split at h
    case h_1 hroot =>
      cases h
      exact ⟨f, m, rfl, hroot⟩
    case h_2 => cases h
  case h_2 => cases h

/-- A script that throws again what it caught from a write, and one that throws the wording of such
a failure. -/
def rethrowingScript : CompiledScript :=
  probeScript "try \x7b reply.other = 1; \x7d catch (err) \x7b throw err; \x7d"

def forgingScript : CompiledScript := probeScript "throw \"undeclared output item other\";"

/-- The first script did attempt to write the output that its failure names; the failure of the
other one is one of the script. -/
theorem failures_are_true_thrown :
    (probeBindings.reply.contains "other" = false ∧
      ∃ n f m, Dispatcher.probe.engine.execute rethrowingScript probeBindings none (fun _ => none) =
        .error (.fault f) m ∧ f.IsRefusal n ∧ m.attempts[n]? = some "other") ∧
    ∃ report, (Dispatcher.probe.engine.run forgingScript probeBindings none fun _ => none).outcome =
      .error (.runtime report) := by
  have hrethrown : (Dispatcher.probe.engine.run rethrowingScript probeBindings none
      fun _ => none).outcome = .error (.undeclaredOutput "other") := by decide +kernel
  have hthrown : thrown? (Dispatcher.probe.engine.execute forgingScript probeBindings none
      fun _ => none) = some "undeclared output item other" := by decide +kernel
  obtain ⟨hundeclared, -⟩ := Dispatcher.probe.engine.failures_are_true rethrowingScript
    probeBindings none fun _ => none
  obtain ⟨-, -, hruntime, -⟩ := Dispatcher.probe.engine.failures_are_true forgingScript
    probeBindings none fun _ => none
  obtain ⟨f, m, hend, hroot⟩ := thrown?_eq_some hthrown
  exact ⟨hundeclared "other" hrethrown, _, hruntime f m rfl hend _ hroot nofun⟩

end Engine

end ScriptedActions.Script
