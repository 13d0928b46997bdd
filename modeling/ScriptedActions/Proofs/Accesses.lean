import ScriptedActions.Proofs.Calls
import ScriptedActions.Script.Chain

/-!
# Accesses keep disciplines

A walk along an access puts back, at every step into a part, what the rest of the walk left there,
whichever way the rest ended. What is left behind a step is an `Onward`, and the induction on the
steps asks of it only that it keeps the discipline.
-/

set_option autoImplicit false

namespace ScriptedActions.Script

/-- What is left of an access keeps a discipline. -/
def Onward.Keeps (D : Discipline) : Onward → Prop
  | .goes next => D.Holds next
  | _ => True

namespace Discipline

variable (D : Discipline)

theorem combine (op : String) (a b : Value) (p : Place) : D.Holds (combine op a b p) := by
  refine D.after .renderer fun render => ?_
  split
  · exact D.bind (D.ofExcept _ p) fun v => D.bind (D.checkSize v p) fun _ => D.pure v
  · exact D.fault _ p

theorem applyAssignment (a : Assignment) : D.Holds (applyAssignment a) := by
  refine D.after .focus? fun t => ?_
  split
  · exact D.pure ()
  · split
    · exact D.fault _ _
    · split
      · exact D.quiet (.refocus _)
      · exact D.bind (D.combine _ _ _ _) fun v => D.quiet (.refocus v)

theorem aboutPart {α : Type} {x : Eval α} (part : Part) (p : Place) (hx : D.Holds x) :
    D.Holds (aboutPart part p x) :=
  D.after .focus? fun _ => D.after .focused fun _ => D.about _ (.part part p) hx

/-! ## Indexers and properties -/

theorem indexerGet (index : Value) (dot : Place) : D.Holds (indexerGet index dot) := by
  refine D.bind (D.tick dot) fun _ => D.after .focused fun v => ?_
  split
  · refine D.after (.version _) fun r => ?_
    split
    · exact D.pure _
    · exact D.pure _
  · exact D.fault _ dot

theorem indexerSet (index new : Value) (dot : Place) : D.Holds (indexerSet index new dot) := by
  refine D.write dot (.looks fun v => ?_)
  split
  · split
    · exact .quietly (.writeOutput _ _ _ dot) fun n => .refocus _
    · exact .fault _ dot
  · exact .fault _ dot

theorem orWithoutIndexer {α : Type} {x other : Eval α} (hx : D.Holds x) (ho : D.Holds other) :
    D.Holds (orWithoutIndexer x other) := by
  refine D.bind (D.catching (fun e he => ?_) hx) fun r => ?_
  · unfold missingIndexer? at he
    split at he
    · exact ⟨_, rfl, nofun, nofun⟩
    · cases he
  · cases r with
    | ok a => exact D.pure a
    | error u => exact ho

theorem getProperty (name : String) (p dot : Place) : D.Holds (getProperty name p dot) := by
  refine D.bind (D.tick p) fun _ => D.after .focused fun v =>
    D.limited (fun s => D.after .renderer fun render => ?_)
      (.after (fun _ => .renderer) (fun _ => rfl) fun render => .native (fun s => ?_) name p _ _)
  · split
    case h_1 n hn =>
      have hkeeps : n.Keeps D := by
        unfold Library.getter? at hn
        split at hn
        · exact D.find? hn
        · cases hn
      exact D.bind (D.runNative hkeeps name p) fun r => D.bind (D.checkSize r p) fun _ => D.pure r
    case h_2 => exact D.orWithoutIndexer (D.indexerGet _ dot) (D.fault _ p)
  · exact Library.curbs_getter? s.limits render name v

theorem setProperty (name : String) (new : Value) (p dot : Place) {missing : Eval Unit}
    (hm : D.Holds missing) : D.Holds (setProperty name new p dot missing) := by
  refine D.bind (D.tick p) fun _ => ?_
  split
  · exact D.pure ()
  · exact D.orWithoutIndexer (D.indexerSet _ new dot) hm

theorem noSetter (name : String) (new : Value) (p : Place) : D.Holds (noSetter name new p) :=
  D.after .focused fun _ => D.fault _ p

/-! ## The walk -/

variable {go : Go} (hgo : ∀ c, D.Holds (go c))

include hgo

theorem evalArg (e : Expr) : D.Holds (evalArg go e) :=
  D.bind (hgo (.expr e)) fun v => D.quiet (.contents v)

theorem evalArgs (es : List Expr) : D.Holds (evalArgs go es) := by
  induction es with
  | nil => exact D.pure []
  | cons e rest ih => exact D.bind (D.evalArg hgo e) fun v => D.bind ih fun vs => D.pure (v :: vs)

theorem evalLinks (links : List Link) : D.Holds (evalLinks go links) := by
  induction links with
  | nil => exact D.pure []
  | cons l rest ih =>
    cases l with
    | field name p dot lenient => exact D.bind ih fun steps => D.pure _
    | method name args p dot lenient =>
      exact D.bind (D.evalArgs hgo args) fun vs => D.bind ih fun steps => D.pure _
    | index e dot lenient =>
      exact D.bind (D.evalArg hgo e) fun v => D.bind ih fun steps => D.pure _

theorem callMethod (name : String) (args : List Value) (first p : Place) :
    D.Holds (callMethod go name args first p) := by
  refine D.after .focused fun target => ?_
  split
  · exact D.bind (D.callValue hgo _ _ _ p) fun v => D.pure _
  · exact D.fault _ p
  · split
    · exact D.bind (D.callValue hgo _ _ _ p) fun v => D.pure _
    · exact D.fault _ first
  · split
    · exact D.pure _
    · exact D.fault _ p
  · exact D.pure _
  · exact D.fault _ p
  · exact D.fault _ p
  · exact D.fault _ p
  · exact D.fault _ p
  · split
    · split
      · exact D.bind (D.callValue hgo _ _ _ p) fun v => D.pure _
      · exact D.callNamed hgo _ _ _ _ p
    · exact D.callNamed hgo _ _ _ _ p

theorem walkMethod (name : String) (args : List Value) (first p : Place) {onward : Onward}
    (h : onward.Keeps D) : D.Holds (walkMethod go name args first p onward) := by
  refine D.bind (D.callMethod hgo name args first p) fun r => ?_
  cases onward with
  | goes next => exact D.bind (D.aboutValue r.1 h) fun r => D.pure r.1
  | _ => exact D.pure r

omit hgo in
theorem assigned (a : Assignment) {old : Eval (Option Value)} (h : D.Holds old) :
    D.Holds (assigned a old) := by
  unfold Script.assigned
  split
  · exact D.pure _
  · refine D.bind h fun v => ?_
    split
    · exact D.combine _ _ _ _
    · exact D.pure _

omit hgo in
theorem walkEntry (entries : List (String × Value)) (name : String) (p : Place) {onward : Onward}
    (h : onward.Keeps D) : D.Holds (walkEntry entries name p onward) := by
  cases onward with
  | ends => exact D.pure _
  | assigns a =>
    exact D.bind (D.aboutPart _ _ (D.applyAssignment a)) fun _ => D.after .focused fun v =>
      D.bind (D.checkSize v _) fun _ => D.pure _
  | goes next =>
    dsimp only [Script.walkEntry]
    split
    · exact D.aboutPart _ p h
    · exact D.bind (D.aboutValue _ h) fun r => D.pure _

omit hgo in
theorem walkProperty (name : String) (p dot : Place) {onward : Onward} (h : onward.Keeps D) :
    D.Holds (walkProperty name p dot onward) := by
  have hget := D.getProperty name p dot
  cases onward with
  | ends => exact D.bind hget fun v => D.pure _
  | assigns a =>
    exact D.bind (D.assigned a (D.bind hget fun v => D.pure _)) fun new =>
      D.bind (D.setProperty name new p dot (D.noSetter name new p)) fun _ => D.pure _
  | goes next =>
    refine D.bind hget fun v => D.bind (D.aboutValue v h) fun r => ?_
    dsimp only
    split
    · exact D.bind (D.setProperty name _ p dot (D.pure ())) fun _ => D.pure _
    · exact D.pure _

omit hgo in
theorem walkPart (here : Value) (part : Part) (p : Place) {onward : Onward}
    (h : onward.Keeps D) : D.Holds (walkPart here part p onward) := by
  cases onward with
  | ends => exact D.pure _
  | assigns a =>
    have ha := D.applyAssignment a
    dsimp only [Script.walkPart]
    split
    · exact D.bind (D.aboutPart part _ (D.bind ha fun _ => D.after .focused fun v =>
        D.checkSize v _)) fun _ => D.pure _
    · exact D.bind (D.aboutPart part _ ha) fun _ => D.pure _
  | goes next =>
    dsimp only [Script.walkPart]
    split
    · exact D.aboutPart part p h
    · refine D.bind (D.aboutValue _ h) fun r => ?_
      split
      · split
        · exact D.pure _
        · exact D.after .focused fun w => D.bind (D.ofExcept _ p) fun u =>
            D.after (.refocus u) fun _ => D.pure _
      · exact D.pure _

omit hgo in
theorem walkIndexer (index : Value) (dot : Place) {onward : Onward} (h : onward.Keeps D) :
    D.Holds (walkIndexer index dot onward) := by
  have hget := D.indexerGet index dot
  cases onward with
  | ends => exact D.bind hget fun v => D.pure _
  | assigns a =>
    exact D.bind (D.assigned a (D.value? hget)) fun new =>
      D.bind (D.indexerSet index new dot) fun _ => D.pure _
  | goes next =>
    refine D.bind hget fun v => D.bind (D.aboutValue v h) fun r => ?_
    dsimp only
    split
    · exact D.bind (D.orWithoutIndexer (D.indexerSet index _ dot) (D.pure ())) fun _ => D.pure _
    · exact D.pure _

omit hgo in
theorem walkIndex (here index : Value) (p dot : Place) {onward : Onward} (h : onward.Keeps D) :
    D.Holds (walkIndex here index p dot onward) := by
  refine D.bind (D.tick .none) fun _ => ?_
  dsimp only
  split
  · exact D.bind (D.ofExcept _ p) fun part => D.walkPart here part p h
  · exact D.walkIndexer index dot h

theorem walk (steps : List Step) (goal : Option Assignment) : D.Holds (walk go steps goal) := by
  induction steps generalizing goal with
  | nil =>
    cases goal with
    | none => exact D.after .focused fun v => D.pure (v, false)
    | some a => exact D.bind (D.applyAssignment a) fun _ => D.pure _
  | cons step rest ih =>
    refine D.after .focused fun here => ?_
    split
    · exact D.pure _
    extract_lets onward
    have honward : onward.Keeps D := by
      simp only [onward]
      split
      · trivial
      · trivial
      · exact ih goal
    cases step with
    | method name args first p lenient => exact D.walkMethod hgo name args first p honward
    | field name p dot lenient =>
      dsimp only
      split
      · exact D.walkEntry _ name p honward
      · exact D.walkProperty name p dot honward
    | index i p dot lenient => exact D.walkIndex here i p dot honward

theorem evalChain (root : Expr) (links : List Link) (goal : Option Assignment) :
    D.Holds (evalChain go root links goal) := by
  refine D.orAt _ (D.bind (D.evalLinks hgo links) fun steps => ?_)
  have hwalk := D.walk hgo steps goal
  split
  · refine D.bind (D.tick _) fun _ => D.after (.find? _) fun i => ?_
    split
    · exact D.fault _ _
    · refine D.after (.variableAt? _) fun v => ?_
      dsimp only
      split
      · exact D.fault _ _
      · exact D.bind (D.aboutVariable _ hwalk) fun r => D.pure _
  · refine D.bind (D.tick _) fun _ => D.after .focus? fun t => ?_
    split
    · exact D.fault _ _
    · split
      · exact D.fault _ _
      · exact D.bind hwalk fun r => D.pure _
  · exact D.bind (D.evalArg hgo _) fun v => D.bind (D.aboutValue v hwalk) fun r => D.pure _

end Discipline

end ScriptedActions.Script
