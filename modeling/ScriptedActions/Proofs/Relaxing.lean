import ScriptedActions.Proofs.SyntaxLimits
import ScriptedActions.Script.Interpreter

/-!
# Limits and computations

A computation looks at its limits by looking at what it runs under. `Eval.Limited` says, of what it then
does, what becomes of it when the limits are dropped: it goes on in the same way, unless it was refused
for a limit before. There is one exception. Calls can only be nested to some depth where no limit is set
for them, and a limit can allow more than that.

A limit can also decide how a script is simplified. `Surroundings.FoldsAlike` says that this is not so
for any module that a run can read.
-/

set_option autoImplicit false

namespace ScriptedActions.Script

/-- A script that is read under limits in another way than without them, for a fault. -/
def Limits.Misreads (l : Limits) (f : CompileFault) : Prop :=
  ∃ text e, e.fault = f ∧
    (Program.parse l text = .error e ∧ Program.parse .unlimited text ≠ .error e ∨
      Program.parseJson l text = .error e ∧ Program.parseJson .unlimited text ≠ .error e)

/-- The causes for which limits refuse to go on. -/
def Limits.Refuses (l : Limits) : Cause → Prop
  | .tooManyOperations | .stackOverflow | .dataTooLarge _ => True
  | .compile f => l.Misreads f
  | _ => False

/-- Only the length of texts decides how a script is simplified. -/
theorem Program.simplified_of_textSize {l : Limits} (p : Program) (h : l.textSize = 0) :
    p.simplified l = p.simplified .unlimited := by
  simp [Program.simplified, simplifiedBody, Limits.unlimited, h]

namespace Surroundings

/-- The same without limits. -/
def relaxed (s : Surroundings) : Surroundings := { s with limits := .unlimited }

/-- No limit decides how a module is simplified. -/
def FoldsAlike (s : Surroundings) : Prop :=
  ∀ path text program, s.moduleText path = some text →
    Program.parse s.limits (withoutInterpreter text) = .ok program →
    program.simplified s.limits = program.simplified .unlimited

/-- Where texts can have any length, no limit decides. -/
theorem foldsAlike_of_textSize {s : Surroundings} (h : s.limits.textSize = 0) : s.FoldsAlike :=
  fun _ _ program _ _ => program.simplified_of_textSize h

/-- A change of what a computation runs under to which limits and modules do not matter. -/
structure Keeps (f : Surroundings → Surroundings) : Prop where
  limits : ∀ s l, f { s with limits := l } = { f s with limits := l }
  moduleText : ∀ s, (f s).moduleText = s.moduleText

namespace Keeps

variable {f : Surroundings → Surroundings} (h : Keeps f) (s : Surroundings)

include h

theorem relaxed : f s.relaxed = (f s).relaxed := h.limits s .unlimited

theorem sameLimits : (f s).limits = s.limits := by
  have hs : f s = { f s with limits := s.limits } := h.limits s s.limits
  rw [hs]

theorem foldsAlike {s : Surroundings} (hs : s.FoldsAlike) : (f s).FoldsAlike := by
  unfold FoldsAlike
  rw [h.moduleText, h.sameLimits]
  exact hs

end Keeps

end Surroundings

variable {α β : Type}

/-- A fault that has a cause of some kind. -/
def Fault.IsFor (P : Cause → Prop) (f : Fault) : Prop := ∃ c, f.root? = some c ∧ P c

/-- The end with such a fault. -/
def EndsFor (P : Cause → Prop) (r : EStateM.Result Stop Machine α) : Prop :=
  ∃ f n, r = .error (.fault f) n ∧ f.IsFor P

namespace Eval

theorem run_bind (s : Surroundings) (m : Machine) (x : Eval α) (f : α → Eval β) :
    (x >>= f).run s m =
      match x.run s m with
      | .ok a n => (f a).run s n
      | .error e n => .error e n := rfl

/-- A computation does without limits what it does under them, as far as it gets: they do not refuse it,
and calls are not nested deeper than they may be without a limit. -/
def Limited (k : Surroundings → Eval α) : Prop :=
  ∀ s m, s.FoldsAlike →
    (k s.relaxed).run s.relaxed m = (k s).run s.relaxed m ∨
    EndsFor s.limits.Refuses ((k s).run s m) ∨
    Limits.defaultCallLevels < s.limits.callLevels ∧
      EndsFor (· = .stackOverflow) ((k s.relaxed).run s.relaxed m)

namespace Limited

theorem of_eq {k : Surroundings → Eval α} (hk : ∀ s, k s.relaxed = k s) : Limited k := by
  intro s m _
  rw [hk s]
  exact .inl rfl

/-- A call can be nested too deep. -/
theorem nested {k : Surroundings → Eval α} (hk : ∀ s, k s.relaxed = k s) (p : Place) :
    Limited fun s => if s.limits.maxCallLevels < s.level then fault .stackOverflow p else k s := by
  intro s m _
  dsimp only
  by_cases hlimit : s.limits.maxCallLevels < s.level
  · rw [if_pos hlimit]
    exact .inr (.inl ⟨_, _, rfl, _, rfl, trivial⟩)
  rw [if_neg hlimit, hk s]
  by_cases hdefault : Limits.defaultCallLevels < s.level
  · refine .inr (.inr ⟨?_, ?_⟩)
    · unfold Limits.maxCallLevels at hlimit
      split at hlimit <;> omega
    · exact ⟨_, _, congrArg (fun x : Eval α => x.run s.relaxed m) (if_pos hdefault), _, rfl, rfl⟩
  · exact .inl (congrArg (fun x : Eval α => x.run s.relaxed m) (if_neg hdefault))

end Limited

end Eval

/-! ## Refused texts -/

namespace Limits

variable (l : Limits) (text : String)

/-- A script is read under limits as without them, or it is misread. -/
theorem parse_or : Program.parse .unlimited text = Program.parse l text ∨
    ∃ e, Program.parse l text = .error e ∧ l.Misreads e.fault := by
  by_cases hsame : Program.parse .unlimited text = Program.parse l text
  · exact .inl hsame
  cases h : Program.parse l text with
  | ok program => exact absurd ((Program.parse_unlimited h).trans h.symm) hsame
  | error e => exact .inr ⟨e, rfl, text, e, rfl, .inl ⟨h, h ▸ hsame⟩⟩

theorem parseJson_or : Program.parseJson .unlimited text = Program.parseJson l text ∨
    ∃ e, Program.parseJson l text = .error e ∧ l.Misreads e.fault := by
  by_cases hsame : Program.parseJson .unlimited text = Program.parseJson l text
  · exact .inl hsame
  cases h : Program.parseJson l text with
  | ok e => exact absurd ((Program.parseJson_unlimited h).trans h.symm) hsame
  | error e => exact .inr ⟨e, rfl, text, e, rfl, .inr ⟨h, h ▸ hsame⟩⟩

end Limits

end ScriptedActions.Script
