import ScriptedActions.Dispatch.Context

/-!
# Forests of tokens

Which tokens stand above a token is settled when it is made, since it is made below an older one:
later tokens are not above it (`Tokens.Grows.under_iff`). What can still change is which of them were
cancelled, and a token counts as cancelled if one of them was (`Tokens.isCancelled_iff`).
-/

set_option autoImplicit false

namespace ScriptedActions

namespace Tokens

/-- A token is another one or stands below it. -/
inductive Under (ts : Tokens) : Nat → Nat → Prop
  | self (t : Nat) : Under ts t t
  | above {t p a : Nat} {n : TokenNode} (hn : ts.nodes[t]? = some n) (hp : n.parent = some p)
    (h : Under ts p a) : Under ts t a

/-- A token is made from older ones only. -/
def Ordered (ts : Tokens) : Prop :=
  ∀ (t : Nat) (n : TokenNode) (p : Nat), ts.nodes[t]? = some n → n.parent = some p → p < t

variable {ts : Tokens}

theorem Under.le (h : ts.Ordered) {t a : Nat} (hunder : ts.Under t a) : a ≤ t := by
  induction hunder with
  | self t => exact Nat.le_refl t
  | above hn hp _ ih => exact Nat.le_trans ih (Nat.le_of_lt (h _ _ _ hn hp))

theorem under_of_root {t a : Nat} {n : TokenNode} (hn : ts.nodes[t]? = some n)
    (hp : n.parent = none) (h : ts.Under t a) : a = t := by
  cases h with
  | self => rfl
  | above hn' hp' => simp_all

theorem under_of_parent {t p a : Nat} {n : TokenNode} (hn : ts.nodes[t]? = some n)
    (hp : n.parent = some p) : ts.Under t a ↔ a = t ∨ ts.Under p a := by
  constructor
  · intro h
    cases h with
    | self => exact .inl rfl
    | above hn' hp' h' =>
      cases hn.symm.trans hn'
      cases hp.symm.trans hp'
      exact .inr h'
  · rintro (rfl | h)
    · exact .self a
    · exact .above hn hp h

/-- **A token counts as cancelled if it, or one above it, was cancelled itself.** The induction is on
the token, since older ones stand above. -/
theorem isCancelled_iff (h : ts.Ordered) (t : Nat) :
    ts.isCancelled t ↔ ∃ a n, ts.Under t a ∧ ts.nodes[a]? = some n ∧ n.cancelled := by
  induction t using Nat.strongRecOn with
  | ind t ih =>
    rw [isCancelled]
    cases hn : ts.nodes[t]? with
    | none =>
      simp only [Bool.false_eq_true, false_iff, not_exists, not_and]
      intro a n hunder ha
      cases hunder with
      | self => simp [hn] at ha
      | above hn' => simp [hn] at hn'
    | some n =>
      cases hp : n.parent with
      | none =>
        simp only [Bool.or_false, hp]
        constructor
        · intro hcancelled
          exact ⟨t, n, .self t, hn, hcancelled⟩
        · rintro ⟨a, m, hunder, ha, hcancelled⟩
          obtain rfl := under_of_root hn hp hunder
          cases hn.symm.trans ha
          exact hcancelled
      | some p =>
        have hlt : p < t := h t n p hn hp
        simp only [hp, if_pos hlt, Bool.or_eq_true, ih p hlt, under_of_parent hn hp]
        constructor
        · rintro (hcancelled | ⟨a, m, hunder, hrest⟩)
          · exact ⟨t, n, .inl rfl, hn, hcancelled⟩
          · exact ⟨a, m, .inr hunder, hrest⟩
        · rintro ⟨a, m, rfl | hunder, ha, hcancelled⟩
          · cases hn.symm.trans ha
            exact .inl hcancelled
          · exact .inr ⟨a, m, hunder, ha, hcancelled⟩

/-- What was known of parents stays: there may be more tokens, and more of them cancelled. -/
def Grows (ts ts' : Tokens) : Prop :=
  ∀ (t : Nat) (n : TokenNode), ts.nodes[t]? = some n →
    ∃ n', ts'.nodes[t]? = some n' ∧ n'.parent = n.parent ∧ (n.cancelled → n'.cancelled)

theorem Grows.refl (ts : Tokens) : ts.Grows ts := fun _ n hn => ⟨n, hn, rfl, id⟩

theorem Grows.trans {ts' ts'' : Tokens} (h : ts.Grows ts') (h' : ts'.Grows ts'') :
    ts.Grows ts'' := by
  intro t n hn
  obtain ⟨n', hn', hparent, hcancelled⟩ := h t n hn
  obtain ⟨n'', hn'', hparent', hcancelled'⟩ := h' t n' hn'
  exact ⟨n'', hn'', hparent'.trans hparent, hcancelled' ∘ hcancelled⟩

theorem Under.mono {ts' : Tokens} (h : ts.Grows ts') {t a : Nat} (hunder : ts.Under t a) :
    ts'.Under t a := by
  induction hunder with
  | self t => exact .self t
  | above hn hp _ ih =>
    obtain ⟨n', hn', hparent, -⟩ := h _ _ hn
    exact .above hn' (hparent.trans hp) ih

/-- Above a token there are no others later. -/
theorem Grows.under_iff {ts' : Tokens} (h : ts.Grows ts') (hordered : ts.Ordered) {t a : Nat}
    (ht : t < ts.nodes.size) : ts'.Under t a ↔ ts.Under t a := by
  refine ⟨fun hunder => ?_, .mono h⟩
  induction hunder with
  | self t => exact .self t
  | @above t p a n hn hp _ ih =>
    have hold := Array.getElem?_eq_getElem ht
    obtain ⟨n', hn', hparent, -⟩ := h t _ hold
    cases hn.symm.trans hn'
    have hp' := hparent.symm.trans hp
    exact .above hold hp' (ih (Nat.lt_trans (hordered t _ p hold hp') ht))

/-- A cancelled token stays cancelled. -/
theorem Grows.isCancelled {ts' : Tokens} (h : ts.Grows ts') (hordered : ts.Ordered)
    (hordered' : ts'.Ordered) {t : Nat} (hcancelled : ts.isCancelled t) : ts'.isCancelled t := by
  rw [isCancelled_iff hordered] at hcancelled
  rw [isCancelled_iff hordered']
  obtain ⟨a, n, hunder, hn, hflag⟩ := hcancelled
  obtain ⟨n', hn', -, hflag'⟩ := h a n hn
  exact ⟨a, n', hunder.mono h, hn', hflag' hflag⟩

/-! ## New tokens -/

section

variable (ts) (parent : Option Nat)

theorem getElem?_make (t : Nat) :
    (ts.make parent).2.nodes[t]? =
      if t = ts.nodes.size then some ⟨parent, false⟩ else ts.nodes[t]? :=
  Array.getElem?_push

@[simp] theorem size_make : (ts.make parent).2.nodes.size = ts.nodes.size + 1 :=
  Array.size_push _

theorem grows_make : ts.Grows (ts.make parent).2 := by
  intro t n hn
  obtain ⟨hlt, -⟩ := Array.getElem?_eq_some_iff.mp hn
  rw [getElem?_make, if_neg (Nat.ne_of_lt hlt)]
  exact ⟨n, hn, rfl, id⟩

end

theorem Ordered.make (h : ts.Ordered) {parent : Option Nat}
    (hparent : ∀ p ∈ parent, p < ts.nodes.size) : (ts.make parent).2.Ordered := by
  intro t n p hn hp
  rw [getElem?_make] at hn
  split at hn
  case isTrue ht =>
    cases hn
    rw [ht]
    exact hparent p hp
  case isFalse => exact h t n p hn hp

/-! ## Cancelled tokens -/

section

variable (ts) (a : Nat)

theorem getElem?_cancel (t : Nat) :
    (ts.cancel a).nodes[t]? =
      if a = t then (ts.nodes[t]?).map fun n => { n with cancelled := true } else ts.nodes[t]? :=
  Array.getElem?_modify

@[simp] theorem size_cancel : (ts.cancel a).nodes.size = ts.nodes.size :=
  Array.size_modify

theorem grows_cancel : ts.Grows (ts.cancel a) := by
  intro t n hn
  rw [getElem?_cancel, hn]
  split
  · exact ⟨_, rfl, rfl, fun _ => rfl⟩
  · exact ⟨n, rfl, rfl, id⟩

end

theorem Ordered.cancel (h : ts.Ordered) (a : Nat) : (ts.cancel a).Ordered := by
  intro t n p hn hp
  rw [getElem?_cancel] at hn
  split at hn
  · obtain ⟨m, hm, rfl⟩ := Option.map_eq_some_iff.mp hn
    exact h t m p hm hp
  · exact h t n p hn hp

/-! ## Tokens that were cancelled themselves -/

/-- A token was cancelled itself. -/
def IsHit (ts : Tokens) (t : Nat) : Prop := ∃ n, ts.nodes[t]? = some n ∧ n.cancelled

theorem isHit_make (ts : Tokens) (parent : Option Nat) (t : Nat) :
    (ts.make parent).2.IsHit t ↔ ts.IsHit t := by
  unfold IsHit
  rw [getElem?_make]
  by_cases ht : t = ts.nodes.size
  · subst ht
    simp
  · rw [if_neg ht]

theorem isHit_cancel {a : Nat} (ha : a < ts.nodes.size) (t : Nat) :
    (ts.cancel a).IsHit t ↔ ts.IsHit t ∨ a = t := by
  unfold IsHit
  rw [getElem?_cancel]
  by_cases ht : a = t
  · subst ht
    simp [ha]
  · simp [ht]

end Tokens

end ScriptedActions
