import Mathlib.Data.List.Induction
import ScriptedActions.Proofs.Dispatch

/-!
# Scripts that run again

A compiled script may be run more than once, and it keeps the reply object that its last run left.
Nothing of that is seen by a later run, which depends on the program alone: its outcome, what it
prints and how long it takes are those of a copy that was just compiled (`Engine.alike_of_program`).

What is extracted is another matter. **A run that is refused leaves the reply object alone**, so
what is extracted behind it belongs to a run before it: to the last one that was not refused
(`Engine.extract_runAll`), and to none only if there is no such run.
-/

set_option autoImplicit false

namespace ScriptedActions.Script

/-- What a script is run with: its values, when it is told to stop, and the texts of the modules. -/
structure RunInput where
  bindings : Bindings
  stopsAt : Option Nat
  modules : Path → Option String

/-- Whether a run starts at all. -/
def RunInput.isAccepted (i : RunInput) : Bool := i.bindings.refusal?.isNone

namespace Engine

variable (e : Engine)

/-- A run of a script. -/
def runWith (script : CompiledScript) (i : RunInput) : RunResult :=
  e.run script i.bindings i.stopsAt i.modules

/-- A script after some runs, one after another. -/
def runAll (script : CompiledScript) (inputs : List RunInput) : CompiledScript :=
  inputs.foldl (fun s i => (e.runWith s i).script) script

@[simp] theorem runAll_nil (script : CompiledScript) : e.runAll script [] = script := rfl

@[simp] theorem runAll_concat (script : CompiledScript) (inputs : List RunInput) (i : RunInput) :
    e.runAll script (inputs ++ [i]) = (e.runWith (e.runAll script inputs) i).script := by
  simp [runAll]

/-! ## One run -/

section

variable {script other : CompiledScript} {i : RunInput}

theorem runWith_of_refused {refused : ScriptError} (h : i.bindings.refusal? = some refused) :
    e.runWith script i = ⟨.error refused, script, [], 0⟩ :=
  e.run_of_refusal script _ _ _ h

@[simp] theorem program_runWith : (e.runWith script i).script.program = script.program := by
  cases h : i.bindings.refusal? with
  | some refused => rw [e.runWith_of_refused h]
  | none =>
    unfold runWith
    rw [e.run_of_accepted _ _ _ _ h]

/-- A run that is accepted is the same for all copies of a program, and so is what it leaves. -/
theorem runWith_of_accepted (h : i.bindings.refusal? = none)
    (hprogram : script.program = other.program) : e.runWith script i = e.runWith other i := by
  have hexecute : e.execute script i.bindings i.stopsAt i.modules =
      e.execute other i.bindings i.stopsAt i.modules := by
    simp only [execute, hprogram]
  unfold runWith
  rw [e.run_of_accepted _ _ _ _ h, e.run_of_accepted _ _ _ _ h, hexecute, hprogram]

/-- **Copies of a program run alike**, whatever reply objects they keep. -/
theorem alike_of_program (hprogram : script.program = other.program) :
    (e.runWith script i).outcome = (e.runWith other i).outcome ∧
      (e.runWith script i).printed = (e.runWith other i).printed ∧
      (e.runWith script i).elapsed = (e.runWith other i).elapsed := by
  cases h : i.bindings.refusal? with
  | some refused =>
    rw [e.runWith_of_refused h, e.runWith_of_refused h]
    exact ⟨rfl, rfl, rfl⟩
  | none =>
    rw [e.runWith_of_accepted h hprogram]
    exact ⟨rfl, rfl, rfl⟩

end

/-! ## Runs one after another -/

theorem program_runAll (script : CompiledScript) (inputs : List RunInput) :
    (e.runAll script inputs).program = script.program := by
  induction inputs using List.reverseRecOn with
  | nil => rfl
  | append_singleton inputs i ih => simp [ih]

/-- **What is extracted belongs to the last run that was not refused.** If there is none, it is
what was there before. -/
theorem extract_runAll (script : CompiledScript) (inputs : List RunInput) :
    extract (e.runAll script inputs) =
      match (inputs.filter RunInput.isAccepted).getLast? with
      | none => extract script
      | some i => extract (e.runWith script i).script := by
  induction inputs using List.reverseRecOn with
  | nil => rfl
  | append_singleton inputs i ih =>
    rw [runAll_concat, List.filter_append]
    cases h : i.bindings.refusal? with
    | some refused =>
      have hrefused : [i].filter RunInput.isAccepted = [] := by simp [RunInput.isAccepted, h]
      rw [e.runWith_of_refused h, hrefused, List.append_nil]
      exact ih
    | none =>
      have haccepted : [i].filter RunInput.isAccepted = [i] := by simp [RunInput.isAccepted, h]
      rw [haccepted, List.getLast?_concat]
      exact congrArg (fun r => extract r.script)
        (e.runWith_of_accepted h (e.program_runAll script inputs))

/-- Nothing was extracted from a script that has not run yet: there is no reply object. -/
theorem reply_of_compile {source : List UInt8} {fresh : CompiledScript}
    (h : e.compile source = .ok fresh) : fresh.reply = none := by
  unfold compile at h
  split at h
  · cases h
  · split at h
    · cases h
    · cases h
      rfl

/-- The error of extracting a reply object that is not there. -/
def missingReply : ScriptError :=
  .binding "reply" "the script replaced the reply object; write fields with reply[\"name\"] = value"

/-- **A run of a script that ran before**, and the same run of a script that was just compiled. The
two end alike. What is extracted behind them is the same as well, unless the run is refused: then
it is what the runs before it left, that is what the last of them that was not refused left, and
nothing can be extracted from the script that was just compiled. -/
theorem run_again {source : List UInt8} {fresh : CompiledScript}
    (h : e.compile source = .ok fresh) (earlier : List RunInput) (i : RunInput) :
    let again := e.runWith (e.runAll fresh earlier) i
    let alone := e.runWith fresh i
    (again.outcome = alone.outcome ∧ again.printed = alone.printed ∧
      again.elapsed = alone.elapsed) ∧
    (i.bindings.refusal? = none → extract again.script = extract alone.script) ∧
    ∀ refused, i.bindings.refusal? = some refused →
      again.outcome = .error refused ∧ extract alone.script = .error missingReply ∧
      extract again.script =
        match (earlier.filter RunInput.isAccepted).getLast? with
        | none => .error missingReply
        | some j => extract (e.runWith fresh j).script := by
  intro again alone
  have hprogram : (e.runAll fresh earlier).program = fresh.program := e.program_runAll fresh earlier
  have hmissing : extract fresh = .error missingReply := by
    unfold extract
    rw [e.reply_of_compile h]
    rfl
  refine ⟨e.alike_of_program hprogram, ?_, ?_⟩
  · intro haccepted
    exact congrArg (fun r => extract r.script) (e.runWith_of_accepted haccepted hprogram)
  -- a refused run leaves the script as it was, with the reply object of the run before it
  · intro refused hrefused
    have hagain : again = ⟨.error refused, e.runAll fresh earlier, [], 0⟩ :=
      e.runWith_of_refused hrefused
    have halone : alone = ⟨.error refused, fresh, [], 0⟩ := e.runWith_of_refused hrefused
    rw [hagain, halone]
    refine ⟨rfl, hmissing, ?_⟩
    rw [e.extract_runAll fresh earlier, hmissing]

/-- The values of a script with one output, for statements about fixed scripts. -/
def countInput (request : Table Json) : RunInput :=
  ⟨⟨.null, request, ⟨[("n", .int 0)]⟩⟩, none, fun _ => none⟩

/-- Values with an integer that no script can be given. -/
def oversizedInput : RunInput := countInput [("x", .int 9223372036854775808)]

/-- A script that writes the output. -/
def countSource : List UInt8 := "reply.n = 1;".toList.map fun c => UInt8.ofNat c.toNat

/-- A run that is accepted, and then one that is refused: the reply object of the first one is
extracted behind the second one, and nothing is extracted if the second one is the only one. -/
theorem run_again_refused : ∃ fresh r,
    (⟨.standard⟩ : Engine).compile countSource = .ok fresh ∧
    extract ((⟨.standard⟩ : Engine).runWith fresh (countInput [])).script = .ok r ∧
    extract ((⟨.standard⟩ : Engine).runWith
      ((⟨.standard⟩ : Engine).runAll fresh [countInput []]) oversizedInput).script = .ok r ∧
    extract ((⟨.standard⟩ : Engine).runWith fresh oversizedInput).script = .error missingReply := by
  have hcompiles : ((⟨.standard⟩ : Engine).compile countSource).toOption.any (fun fresh =>
      (extract ((⟨.standard⟩ : Engine).runWith fresh (countInput [])).script).toOption.isSome) =
        true := by
    decide +kernel
  have haccepted : [countInput []].filter RunInput.isAccepted = [countInput []] := rfl
  have hrefused : oversizedInput.bindings.refusal?.isSome = true := by decide
  obtain ⟨refused, hrefused⟩ := Option.isSome_iff_exists.mp hrefused
  cases hfresh : (⟨.standard⟩ : Engine).compile countSource with
  | error e =>
    rw [hfresh] at hcompiles
    cases hcompiles
  | ok fresh =>
    rw [hfresh] at hcompiles
    have hextracts : (extract ((⟨.standard⟩ : Engine).runWith fresh
      (countInput [])).script).toOption.isSome = true := hcompiles
    cases hr : extract ((⟨.standard⟩ : Engine).runWith fresh (countInput [])).script with
    | error e =>
      rw [hr] at hextracts
      cases hextracts
    | ok r =>
      obtain ⟨-, -, hrefusal⟩ := run_again ⟨.standard⟩ hfresh [countInput []] oversizedInput
      obtain ⟨-, halone, hagain⟩ := hrefusal refused hrefused
      rw [haccepted] at hagain
      exact ⟨fresh, r, rfl, hr, hagain.trans hr, halone⟩

end Engine

end ScriptedActions.Script
