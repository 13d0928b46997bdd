import Mathlib.Tactic.SplitIfs
import ScriptedActions.Proofs.Discipline
import ScriptedActions.Proofs.NativeLimits

/-!
# Calls keep disciplines

If what is nested one level deeper keeps a discipline, so does every call: the native functions,
those of them that call functions of the script, and the functions of the script themselves.

A native function that only computes cannot break a discipline, since it is no computation of a
run at all. For the others `Native.Keeps` says what is to be shown.
-/

set_option autoImplicit false

namespace ScriptedActions.Script

/-- A native function keeps a discipline. -/
def Native.Keeps (D : Discipline) : Native → Prop
  | .computes _ => True
  | .act _ run => D.Holds run

theorem isMissing_isOrdinary {name : String} {f : Fault} (h : (isMissing name f).isSome) :
    f.IsOrdinary := by
  unfold isMissing at h
  split at h
  · exact ⟨_, rfl, nofun, nofun⟩
  · cases h

namespace Discipline

variable (D : Discipline)

/-! ## The library -/

theorem outputs (n : Nat) : D.Holds (Library.outputs n) :=
  D.after (.version n) fun r => D.pure r.keys

theorem sleeps? {v : Value} {n : Native} (h : Library.sleeps? v = some n) : n.Keeps D := by
  unfold Library.sleeps? at h
  split at h <;> cases h
  all_goals
    dsimp only [Native.Keeps]
    split
    · exact D.after (.sleep _) fun _ => D.pure _
    · exact D.pure _

theorem acts? {name : String} {args : List Value} {n : Native}
    (h : Library.acts? name args = some n) : n.Keeps D := by
  unfold Library.acts? at h
  split at h
  case h_7 => exact D.sleeps? h
  all_goals cases h
  case h_1 => exact D.bind (D.outputs _) fun ks => D.pure _
  case h_2 => exact D.bind (D.outputs _) fun ks => D.pure _
  case h_3 => exact D.bind (D.outputs _) fun ks => D.pure _
  case h_4 => exact D.bind (D.outputs _) fun ks => D.pure _
  case h_5 => exact D.after .now fun t => D.pure _
  case h_6 => exact D.after .now fun t => D.pure _
  case h_8 => exact D.jump _
  case h_9 => exact D.jump _

theorem find? {limits : Limits} {render : Nat → String} {name : String} {args : List Value}
    {n : Native} (h : Library.find? limits render name args = some n) : n.Keeps D := by
  unfold Library.find? at h
  split at h
  · cases h
    trivial
  · exact D.acts? h

/-- What a callback computes from the items takes their place. -/
theorem keeping {α : Type} {x : Eval α} {items : α → Value} {v : α → Value} (hx : D.Holds x) :
    D.Holds (do
      let r ← x
      Eval.refocus (items r)
      pure (v r)) :=
  D.bind hx fun _ => D.after (.refocus _) fun _ => D.pure _

section Callbacks

variable {invoke : Library.Invoke}
  (hinvoke : ∀ name f subject args extras, D.Holds (invoke name f subject args extras))

include hinvoke

theorem mapped (name : String) (f : Value) (items : List Value) (n : Nat) :
    D.Holds (Library.mapped invoke name f items n) := by
  induction items generalizing n with
  | nil => exact D.pure []
  | cons v rest ih =>
    exact D.bind (hinvoke name f (.item v) [] [Stretch.count n]) fun r =>
      D.bind (ih (n + 1)) fun vs => D.pure (r.1 :: vs)

theorem visited (name : String) (f : Value) (items : List Value) (n : Nat) :
    D.Holds (Library.visited invoke name f items n) := by
  induction items generalizing n with
  | nil => exact D.pure []
  | cons v rest ih =>
    exact D.bind (hinvoke name f (.this v) [] [Stretch.count n]) fun r =>
      D.bind (ih (n + 1)) fun vs => D.pure (r.2 :: vs)

theorem parted (name : String) (f : Value) (items : List Value) (n : Nat) :
    D.Holds (Library.parted invoke name f items n) := by
  induction items generalizing n with
  | nil => exact D.pure ([], [])
  | cons v rest ih =>
    exact D.bind (hinvoke name f (.item v) [] [Stretch.count n]) fun r =>
      D.bind (ih (n + 1)) fun p => D.pure _

theorem partedEntries (name : String) (f : Value) (entries : List (String × Value)) :
    D.Holds (Library.partedEntries invoke name f entries) := by
  induction entries with
  | nil => exact D.pure ([], [])
  | cons e rest ih =>
    exact D.bind (hinvoke name f (.item e.2) [.text e.1] []) fun r => D.bind ih fun p => D.pure _

theorem firstFor (name : String) (f : Value) (items : List Value) (n : Nat) :
    D.Holds (Library.firstFor invoke name f items n) := by
  induction items generalizing n with
  | nil => exact D.pure none
  | cons v rest ih =>
    refine D.bind (hinvoke name f (.item v) [] [Stretch.count n]) fun r => ?_
    split
    · exact D.pure _
    · exact ih (n + 1)

theorem allFor (name : String) (f : Value) (items : List Value) (n : Nat) :
    D.Holds (Library.allFor invoke name f items n) := by
  induction items generalizing n with
  | nil => exact D.pure true
  | cons v rest ih =>
    refine D.bind (hinvoke name f (.item v) [] [Stretch.count n]) fun r => ?_
    split
    · exact ih (n + 1)
    · exact D.pure false

theorem firstValue (name : String) (f : Value) (items : List Value) (n : Nat) :
    D.Holds (Library.firstValue invoke name f items n) := by
  induction items generalizing n with
  | nil => exact D.pure Value.unit
  | cons v rest ih =>
    refine D.bind (hinvoke name f (.item v) [] [Stretch.count n]) fun r => ?_
    split
    · exact ih (n + 1)
    · exact D.pure r.1

theorem reduced (name : String) (f acc : Value) (items : List (Value × Nat)) :
    D.Holds (Library.reduced invoke name f acc items) := by
  induction items generalizing acc with
  | nil => exact D.pure acc
  | cons v rest ih =>
    exact D.bind (hinvoke name f .nothing [acc, v.1] [Stretch.count v.2]) fun r => ih r.1

theorem inFront (f a b : Value) : D.Holds (Library.inFront invoke f a b) := by
  refine D.bind (D.value? (hinvoke "sort" f .nothing [a, b] [])) fun r => ?_
  split <;> exact D.pure _

theorem merge (f : Value) (n : Nat) (a b : List Value) :
    D.Holds (Library.merge invoke f n a b) := by
  induction n generalizing a b with
  | zero => exact D.pure (a ++ b)
  | succ n ih =>
    cases a with
    | nil => exact D.pure b
    | cons v a =>
      cases b with
      | nil => exact D.pure (v :: a)
      | cons w b =>
        refine D.bind (D.inFront hinvoke f v w) fun r => ?_
        split
        · exact D.bind (ih a (w :: b)) fun vs => D.pure (v :: vs)
        · exact D.bind (ih (v :: a) b) fun vs => D.pure (w :: vs)

theorem ordered (f : Value) (n : Nat) (items : List Value) :
    D.Holds (Library.ordered invoke f n items) := by
  induction n generalizing items with
  | zero => exact D.pure items
  | succ n ih =>
    unfold Library.ordered
    split
    · exact D.pure items
    · exact D.bind (ih _) fun a => D.bind (ih _) fun b => D.merge hinvoke f items.length a b

theorem dedupedBy (f last : Value) (items : List Value) :
    D.Holds (Library.dedupedBy invoke f last items) := by
  induction items generalizing last with
  | nil => exact D.pure []
  | cons v rest ih =>
    refine D.bind (D.value? (hinvoke "dedup" f .nothing [last, v] [])) fun r => ?_
    dsimp only
    split
    · exact ih last
    · exact D.bind (ih v) fun vs => D.pure (v :: vs)

theorem arrayCallbacks? {name : String} {items : Array Value} {args : List Value} {n : Native}
    (h : Library.arrayCallbacks? invoke name items args = some n) : n.Keeps D := by
  unfold Library.arrayCallbacks? at h
  split at h <;> cases h
  case h_1 => exact D.bind (D.mapped hinvoke _ _ _ _) fun _ => D.pure _
  case h_2 => exact D.bind (D.parted hinvoke _ _ _ _) fun _ => D.pure _
  case h_3 => exact D.keeping (D.visited hinvoke _ _ _ _)
  case h_4 => exact D.bind (D.firstFor hinvoke _ _ _ _) fun _ => D.pure _
  case h_5 => exact D.bind (D.allFor hinvoke _ _ _ _) fun _ => D.pure _
  case h_6 => exact D.bind (D.firstFor hinvoke _ _ _ _) fun _ => D.pure _
  case h_7 => exact D.bind (D.firstFor hinvoke _ _ _ _) fun _ => D.pure _
  case h_8 => exact D.firstValue hinvoke _ _ _ _
  case h_9 => exact D.firstValue hinvoke _ _ _ _
  case h_10 => exact D.bind (D.firstFor hinvoke _ _ _ _) fun _ => D.pure _
  case h_11 => exact D.bind (D.firstFor hinvoke _ _ _ _) fun _ => D.pure _
  case h_12 => exact D.reduced hinvoke _ _ _ _
  case h_13 => exact D.reduced hinvoke _ _ _ _
  case h_14 => exact D.reduced hinvoke _ _ _ _
  case h_15 => exact D.reduced hinvoke _ _ _ _
  case h_16 => exact D.keeping (D.parted hinvoke _ _ _ _)
  case h_17 => exact D.keeping (D.parted hinvoke _ _ _ _)
  case h_18 => exact D.keeping (D.ordered hinvoke _ _ _)
  case h_19 =>
    dsimp only [Native.Keeps]
    split
    · exact D.pure _
    · exact D.keeping (D.dedupedBy hinvoke _ _ _)

theorem mapCallbacks? {name : String} {entries : List (String × Value)} {args : List Value}
    {n : Native} (h : Library.mapCallbacks? invoke name entries args = some n) : n.Keeps D := by
  unfold Library.mapCallbacks? at h
  split at h <;> cases h
  case h_1 => exact D.bind (D.partedEntries hinvoke _ _ _) fun _ => D.pure _
  case h_2 => exact D.keeping (D.partedEntries hinvoke _ _ _)
  case h_3 => exact D.keeping (D.partedEntries hinvoke _ _ _)

theorem callbacks? {named : String → Value} {name : String} {args : List Value} {n : Native}
    (h : Library.callbacks? invoke named name args = some n) : n.Keeps D := by
  unfold Library.callbacks? at h
  split at h
  · split at h
    · exact D.arrayCallbacks? hinvoke h
    · cases h
  · exact D.arrayCallbacks? hinvoke h
  · exact D.mapCallbacks? hinvoke h
  · cases h

end Callbacks

/-! ## Functions of the script -/

variable {go : Go} (hgo : ∀ c, D.Holds (go c))

include hgo

theorem runAll (body : List Stmt) : D.Holds (runAll go body) := by
  induction body with
  | nil => exact D.pure Value.unit
  | cons s rest ih =>
    cases rest with
    | nil => exact hgo (.stmt s)
    | cons t rest => exact D.bind (hgo (.stmt s)) fun _ => ih

theorem runBlock (body : List Stmt) : D.Holds (runBlock go body) := by
  unfold Script.runBlock
  split
  · exact D.pure Value.unit
  · exact D.inside (D.withImports (D.runAll hgo body))

/-- A fault moves out of a function as it is or wrapped in the call; its root stays. -/
theorem runFunction (f : Function) (home : Home) (source : String) (args : List Value)
    (amongOthers : Bool) (p : Place) :
    D.Holds (runFunction go f home source args amongOthers p) := by
  refine D.bind (D.tick p) fun _ => D.limited (fun s => ?_) (.nested (fun _ => rfl) p)
  split
  · exact D.fault _ p
  · have hbody (homes : List Home) : D.Holds (Eval.under
        (fun s => { s with level := s.level + 1, homes := homes, source := source })
        (Script.runBlock go f.body)) :=
      D.under ⟨fun _ _ => rfl, fun _ => rfl⟩ (D.runBlock hgo f.body)
    refine D.returned (D.mapFault (fun e => ?_) ?_)
    · split
      · exact e.root?_at p
      · rfl
    · split
      · exact D.inside (D.bind (D.forM _ fun _ => D.quiet (.declare _ _ _)) fun _ => hbody _)
      · exact D.withScope _ (hbody _)

theorem callAbout (f v : Value) (args : List Value) : D.Holds (callAbout go f v args) :=
  D.aboutValue v (hgo _)

theorem callBeside (f v : Value) (args : List Value) : D.Holds (callBeside go f v args) :=
  D.bind (D.aboutNothing (hgo _)) fun r => D.pure (r, v)

theorem suitableCall? {f : Value} {subject : Library.Subject} {args extras : List Value}
    {arity : Nat} {x : Eval (Value × Value)}
    (h : suitableCall? go f subject args extras arity = some x) : D.Holds x := by
  unfold Script.suitableCall? at h
  cases subject with
  | item v =>
    dsimp only at h
    split_ifs at h <;> cases h
    · exact D.callAbout hgo f v args
    · exact D.callBeside hgo f v _
    · exact D.callBeside hgo f v _
    · exact D.callAbout hgo f v _
  | this v =>
    dsimp only at h
    split_ifs at h <;> cases h
    · exact D.callAbout hgo f v args
    · exact D.callAbout hgo f v _
  | nothing =>
    dsimp only at h
    split_ifs at h <;> cases h
    · exact D.callBeside hgo f .unit args
    · exact D.callBeside hgo f .unit _

theorem possibleCalls (f : Value) (subject : Library.Subject) (args extras : List Value) :
    ∀ x ∈ possibleCalls go f subject args extras, D.Holds x := by
  cases subject with
  | item v =>
    simp only [Script.possibleCalls, List.forall_mem_cons]
    exact ⟨D.callAbout hgo f v _, D.callBeside hgo f v _, D.callBeside hgo f v _, nofun⟩
  | this v =>
    simp only [Script.possibleCalls, List.forall_mem_cons]
    exact ⟨D.callAbout hgo f v _, D.callAbout hgo f v _, nofun⟩
  | nothing =>
    simp only [Script.possibleCalls, List.forall_mem_cons]
    exact ⟨D.callBeside hgo f .unit _, D.callBeside hgo f .unit _, nofun⟩

omit hgo in
theorem firstFound (name : String) {calls : List (Eval (Value × Value))}
    (h : ∀ x ∈ calls, D.Holds x) : D.Holds (firstFound name calls) := by
  induction calls with
  | nil => exact D.fault _ _
  | cons x rest ih =>
    have hx := h x (.head _)
    have hrest := ih fun y hy => h y (.tail _ hy)
    cases rest with
    | nil => exact hx
    | cons y rest =>
      refine D.bind (D.catching (fun e he => ?_) hx) fun r => ?_
      · exact isMissing_isOrdinary he
      · cases r with
        | ok r => exact D.pure r
        | error u => exact hrest

theorem invoke (name : String) (f : Value) (subject : Library.Subject)
    (args extras : List Value) : D.Holds (invoke go name f subject args extras) := by
  have hbyName (fname : String) : D.Holds (do
      let s ← Eval.surroundings
      (Script.firstFound fname (Script.possibleCalls go f subject args extras)).mapFault fun e =>
        if e.isFatal then e else .inCall name s.source e .none) := by
    refine D.reading (fun _ => rfl) fun s => D.mapFault (fun e => ?_)
      (D.firstFound fname (D.possibleCalls hgo f subject args extras))
    split <;> rfl
  refine D.uncounted (D.under ⟨fun _ _ => rfl, fun _ => rfl⟩ ?_)
  split
  case h_1 fname b home curried =>
    cases h : Script.suitableCall? go (.fn fname (some b) home curried) subject args extras
        (b.params.length - curried.length) with
    | none => exact hbyName fname
    | some x => exact D.suitableCall? hgo h
  case h_2 fname home curried => exact hbyName fname
  case h_3 => exact D.fault _ _

theorem readJson (text : String) : D.Holds (readJson go text) := by
  refine D.limited (fun s => ?_) fun s m _ => ?_
  · dsimp only
    split
    · exact D.fault _ _
    · refine D.bind (D.withScope _ (D.aboutNothing (hgo _))) fun v => ?_
      split
      · exact D.pure _
      · exact D.fault _ _
  · dsimp only [Surroundings.relaxed]
    rcases s.limits.parseJson_or text with hsame | ⟨e, he, hrefused⟩
    · rw [hsame]
      exact .inl rfl
    · rw [he]
      exact .inr (.inl ⟨_, _, rfl, _, rfl, hrefused⟩)

omit hgo in
theorem writeLine (forDebugging : Bool) (text : String) (p : Place) :
    D.Holds (writeLine forDebugging text p) :=
  D.after (.print _ _ _) fun _ => D.pure _

omit hgo in
theorem describe (name : String) (v : Value) : D.Holds (describe name v) :=
  D.after .renderer fun _ => D.pure _

theorem native? {limits : Limits} {render : Nat → String} {home : Home} {name : String}
    {args : List Value} {p : Place} {n : Native}
    (h : native? go limits render home name args p = some n) : n.Keeps D := by
  unfold Script.native? at h
  split at h
  case h_1 => cases h; trivial
  case h_2 => cases h; exact D.writeLine _ _ p
  case h_3 => cases h; exact D.writeLine _ _ p
  case h_4 => cases h; exact D.bind (D.describe _ _) fun t => D.writeLine _ t p
  case h_5 => cases h; exact D.bind (D.describe _ _) fun t => D.writeLine _ t p
  case h_6 => cases h; exact D.readJson hgo _
  case h_7 =>
    split at h
    case h_1 hn =>
      cases h
      exact D.callbacks? (D.invoke hgo) hn
    case h_2 =>
      split at h
      case h_1 hn =>
        cases h
        exact D.find? hn
      case h_2 =>
        obtain ⟨r, -, rfl⟩ := Option.map_eq_some_iff.mp h
        trivial

omit hgo in
theorem runNative {n : Native} (hn : n.Keeps D) (name : String) (p : Place) :
    D.Holds (runNative n name p) := by
  refine D.after .focus? fun t => ?_
  dsimp only
  split
  · exact D.fault _ _
  · split
    · exact D.ofExcept _ p
    · exact D.ofExcept _ p
    · exact D.bind (D.ofExcept _ p) fun r => D.after (.refocus _) fun _ => D.pure _
    · exact D.orAt p hn

theorem callNative (name : String) (args : List Value) (byReference : Bool) (p : Place) :
    D.Holds (callNative go name args byReference p) := by
  refine D.bind (D.tick p) fun _ => D.limited (fun s => D.after .renderer fun r => ?_)
    (.after (fun _ => .renderer) (fun _ => rfl) fun r => .native (fun s => ?_) name p _ _)
  · split
    case h_1 n hn =>
      refine D.bind (D.runNative (D.native? hgo hn) name p) fun v =>
        D.bind (D.checkSize v p) fun _ => ?_
      dsimp only
      split
      · exact D.after .focused fun w => D.bind (D.checkSize w p) fun _ => D.pure _
      · exact D.pure _
    case h_2 => exact D.fault _ _
  · exact curbs_native? go s.limits r (s.homes.headD default) name args p

theorem callNamed (name : String) (args : List Value) (byReference isMethod : Bool) (p : Place) :
    D.Holds (callNamed go name args byReference isMethod p) := by
  refine D.reading (fun _ => rfl) fun s => ?_
  dsimp only
  split
  · split
    · exact D.pure _
    · split
      · exact D.bind (D.runFunction hgo _ _ _ _ _ p) fun v => D.pure _
      · exact D.bind (D.aboutNothing (D.runFunction hgo _ _ _ _ _ p)) fun v => D.pure _
  · exact D.callNative hgo name args byReference p

theorem callOn (name : String) (args : List Value) (p : Place) :
    D.Holds (callOn go name args p) := by
  cases args with
  | nil => exact D.aboutNothing (D.bind (D.callNamed hgo name _ _ _ p) fun r => D.pure _)
  | cons a rest => exact D.bind (D.aboutValue a (D.callNamed hgo name _ _ _ p)) fun r => D.pure _

theorem callValue (f : Value) (isMethod : Bool) (args : List Value) (p : Place) :
    D.Holds (callValue go f isMethod args p) := by
  unfold Script.callValue
  cases f with
  | fn name body home curried =>
    have hbyName : D.Holds (if isMethod then do
          let first ← Eval.focused
          pure (← Script.callNamed go name (first :: (curried ++ args)) true true p).1
        else Script.callOn go name (curried ++ args) p) := by
      split
      · exact D.after .focused fun w =>
          D.bind (D.callNamed hgo name _ true true p) fun r => D.pure _
      · exact D.callOn hgo name _ p
    dsimp only
    split
    · split
      · refine D.reading (fun _ => rfl) fun s => ?_
        split
        · exact D.runFunction hgo _ _ _ _ _ p
        · exact D.aboutNothing (D.runFunction hgo _ _ _ _ _ p)
      · exact hbyName
    · exact hbyName
  | _ => exact D.fault _ _

end Discipline

end ScriptedActions.Script
