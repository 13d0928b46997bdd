import ScriptedActions.Proofs.Relaxing

/-!
# Limits and native functions

A limit for the size of values makes some native functions refuse what they would compute without it:
those that make a value longer by a number that is given to them. Under limits a native function
computes what it computes without them, or it refuses to.
-/

set_option autoImplicit false

namespace ScriptedActions.Script

/-- What a native function computes under limits, and what it computes without them. -/
inductive Computed.Curbs : Computed → Computed → Prop
  | same (c : Computed) : Curbs c c
  | value (kind : String) (r : Except Cause Value) :
    Curbs (.value (.error (.dataTooLarge kind))) (.value r)
  | update (kind : String) (r : Except Cause (Value × Value)) :
    Curbs (.update (.error (.dataTooLarge kind))) (.update r)

/-- What is computed is the same, or refused since it is too large. -/
def IsCurbed {α : Type} (x y : Except Cause α) : Prop :=
  x = y ∨ ∃ kind, x = .error (.dataTooLarge kind)

namespace IsCurbed

variable {α β : Type} {x y : Except Cause α}

theorem refl (x : Except Cause α) : IsCurbed x x := .inl rfl

theorem refused (kind : String) (y : Except Cause α) : IsCurbed (.error (.dataTooLarge kind)) y :=
  .inr ⟨kind, rfl⟩

theorem map (f : α → β) (h : IsCurbed x y) : IsCurbed (x.map f) (y.map f) := by
  rcases h with rfl | ⟨kind, rfl⟩
  · exact .refl _
  · exact .refused kind _

theorem update {x y : Except Cause (Value × Value)} (h : IsCurbed x y) :
    Computed.Curbs (.update x) (.update y) := by
  rcases h with rfl | ⟨kind, rfl⟩
  · exact .same _
  · exact .update kind y

theorem value {x y : Except Cause Value} (h : IsCurbed x y) :
    Computed.Curbs (.value x) (.value y) := by
  rcases h with rfl | ⟨kind, rfl⟩
  · exact .same _
  · exact .value kind y

/-- A check that only a limit makes. -/
theorem check {c d : Prop} [Decidable c] [Decidable d] (hd : ¬ d) (kind : String)
    {z : Except Cause α} (h : IsCurbed x y) :
    IsCurbed (if c then .error (.dataTooLarge kind) else x) (if d then z else y) := by
  rw [if_neg hd]
  split
  · exact .refused kind y
  · exact h

theorem ite {c : Prop} [Decidable c] {x' y' : Except Cause α} (hx : IsCurbed x x')
    (hy : IsCurbed y y') : IsCurbed (if c then x else y) (if c then x' else y') := by
  split
  · exact hx
  · exact hy

end IsCurbed

namespace Library

variable (limits : Limits)

/-! ## Values made longer -/

theorem isCurbed_padded (s : String) (len : Int) (t : String) :
    IsCurbed (padded limits s len t) (padded .unlimited s len t) :=
  .ite (.refl _) (.check (by simp [Limits.unlimited]) _ (.ite (.refl _)
    (.check (by simp [Limits.unlimited]) _ (.refl _))))

theorem isCurbed_paddedItems (items : Array Value) (len : Int) (v : Value) :
    IsCurbed (paddedItems limits items len v) (paddedItems .unlimited items len v) := by
  refine .ite (.refl _) (.check (by simp [Limits.unlimited]) _ ?_)
  dsimp only [Eval.oversize, Limits.unlimited]
  split
  · split
    case isTrue htimes =>
      left
      simp [htimes]
    case isFalse => exact .refused _ _
  · exact .refl _

/-- What is computed, if there is a function. -/
abbrev Curbs := Option.Rel Computed.Curbs

theorem Curbs.refl (c : Option Computed) : Curbs c c := by
  cases c with
  | none => exact .none
  | some c => exact .some (.same c)

theorem curbs_ofArray (name : String) (items : Array Value) (args : List Value) :
    Curbs (ofArray limits name items args) (ofArray .unlimited name items args) := by
  unfold ofArray
  split
  case h_5 => exact .some ((isCurbed_paddedItems limits _ _ _).map _).update
  all_goals exact .refl _

theorem curbs_ofBlob (name : String) (bytes : Array UInt8) (args : List Value) :
    Curbs (ofBlob limits name bytes args) (ofBlob .unlimited name bytes args) := by
  unfold ofBlob
  split
  case h_8 =>
    exact .some (IsCurbed.check (by simp [Limits.unlimited]) _ (.refl _)).update
  all_goals exact .refl _

theorem curbs_containers? (name : String) (args : List Value) :
    Curbs (containers? limits name args) (containers? .unlimited name args) := by
  have hblob : ∀ len b, Computed.Curbs (newBlob limits len b) (newBlob .unlimited len b) :=
    fun _ _ => (IsCurbed.check (by simp [Limits.unlimited]) _ (.refl _)).value
  unfold containers?
  split
  · exact curbs_ofArray limits name _ _
  · exact .refl _
  · exact curbs_ofBlob limits name _ _
  · exact .refl _
  · split
    · exact .some (hblob _ _)
    · exact .none
  · split
    · exact .some (hblob _ _)
    · exact .none
  · exact .refl _

theorem curbs_orElse (a : Option Computed) {b b' : Option Computed} (h : Curbs b b') :
    Curbs (a.orElse fun _ => b) (a.orElse fun _ => b') := by
  cases a with
  | none => exact h
  | some c => exact .refl _

theorem curbs_texts? (render : Nat → String) (name : String) (args : List Value) :
    Curbs (texts? limits render name args) (texts? .unlimited render name args) := by
  have hpad : ∀ s len t, Curbs (some (.update ((padded limits s len t).map fun r => (.unit, .text r))))
      (some (.update ((padded .unlimited s len t).map fun r => (.unit, .text r)))) :=
    fun s len t => .some ((isCurbed_padded limits s len t).map _).update
  unfold texts?
  split
  case h_3 s rest _ =>
    refine curbs_orElse _ ?_
    dsimp only
    split
    case h_4 =>
      split
      · exact .refl _
      · exact hpad _ _ _
      · exact .none
    case h_5 =>
      split
      · exact hpad _ _ _
      · exact .none
    all_goals exact .refl _
  all_goals exact .refl _

theorem curbs_firstOf {a a' b b' : Option Computed} (rest : List (Option Computed)) (ha : Curbs a a')
    (hb : Curbs b b') : Curbs (firstOf (a :: b :: rest)) (firstOf (a' :: b' :: rest)) := by
  cases ha with
  | some h => exact .some h
  | none =>
    cases hb with
    | some h => exact .some h
    | none => exact .refl _

end Library

/-- What a native function does under limits, and what it does without them. -/
inductive Native.Curbs : Native → Native → Prop
  | same (n : Native) : Curbs n n
  | computes {c d : Computed} (h : c.Curbs d) : Curbs (.computes c) (.computes d)

theorem Library.curbs_find? (limits : Limits) (render : Nat → String) (name : String)
    (args : List Value) :
    Option.Rel Native.Curbs (find? limits render name args) (find? .unlimited render name args) := by
  have h := curbs_firstOf [numbers? name args, any? render name args]
    (curbs_containers? limits name args) (curbs_texts? limits render name args)
  unfold find?
  generalize firstOf _ = c at h ⊢
  generalize firstOf _ = d at h ⊢
  cases h with
  | some h => exact .some (.computes h)
  | none =>
    dsimp only
    cases acts? name args with
    | none => exact .none
    | some n => exact .some (.same n)

theorem Library.curbs_getter? (limits : Limits) (render : Nat → String) (name : String) (v : Value) :
    Option.Rel Native.Curbs (getter? limits render name v) (getter? .unlimited render name v) := by
  unfold getter?
  split
  · exact curbs_find? limits render name [v]
  · exact .none

theorem curbs_native? (go : Go) (limits : Limits) (render : Nat → String) (home : Home) (name : String)
    (args : List Value) (p : Place) :
    Option.Rel Native.Curbs (native? go limits render home name args p)
      (native? go .unlimited render home name args p) := by
  have hsame : ∀ o : Option Native, Option.Rel Native.Curbs o o := by
    intro o
    cases o with
    | none => exact .none
    | some n => exact .some (.same n)
  unfold native?
  split
  case h_7 =>
    cases Library.callbacks? (invoke go) (fun s => .fn s none home []) name args with
    | some n => exact hsame _
    | none =>
      have h := Library.curbs_find? limits render name args
      dsimp only
      generalize Library.find? limits render name args = n at h ⊢
      generalize Library.find? .unlimited render name args = n' at h ⊢
      cases h with
      | some h => exact .some h
      | none => exact hsame _
  all_goals exact hsame _

/-- Limits do not matter to a run of a native function, or they make it refuse. -/
theorem Native.Curbs.run {n n' : Native} (h : n.Curbs n') (name : String) (p : Place) (m : Machine) :
    n' = n ∨
    (∃ e, ∀ s, (runNative n name p).run s m = .error e m ∧
      (runNative n' name p).run s m = .error e m) ∨
    ∃ kind, ∀ s,
      (runNative n name p).run s m = .error (.fault (.here (.dataTooLarge kind) p)) m := by
  cases h with
  | same => exact .inl rfl
  | computes h =>
    cases h with
    | same => exact .inl rfl
    | value kind r => exact .inr (.inr ⟨kind, fun _ => rfl⟩)
    | update kind r =>
      right
      have hrun : ∀ r s, (runNative (.computes (.update r)) name p).run s m =
          (if m.focus.any (·.constant) then Eval.fault (.constantMethod name) p
            else do
              let result ← Eval.ofExcept r p
              Eval.refocus result.2
              pure result.1).run s m := fun _ _ => rfl
      -- what is constant is not changed, with or without limits
      cases hconstant : m.focus.any (·.constant) with
      | true =>
        refine .inl ⟨.fault (.here (.constantMethod name) p), fun s => ?_⟩
        simp only [hrun, hconstant, if_true]
        exact ⟨rfl, rfl⟩
      | false =>
        refine .inr ⟨kind, fun s => ?_⟩
        rw [hrun, hconstant]
        rfl

/-- A call of the native function that is found. -/
theorem Eval.Limited.native {α : Type} {find : Surroundings → Option Native}
    (hfind : ∀ s, Option.Rel Native.Curbs (find s) (find s.relaxed)) (name : String) (p : Place)
    (k : Native → Value → Eval α) (other : Eval α) :
    Limited fun s =>
      match find s with
      | some n => runNative n name p >>= k n
      | none => other := by
  intro s m _
  have h := hfind s
  dsimp only
  generalize find s = n at h ⊢
  generalize find s.relaxed = n' at h ⊢
  cases h with
  | none => exact .inl rfl
  | some h =>
    rcases h.run name p m with rfl | ⟨e, he⟩ | ⟨kind, hkind⟩
    · exact .inl rfl
    · simp only [run_bind, he]
      exact .inl trivial
    · refine .inr (.inl ⟨.here (.dataTooLarge kind) p, m, ?_, _, rfl, trivial⟩)
      simp only [run_bind, hkind]

end ScriptedActions.Script
