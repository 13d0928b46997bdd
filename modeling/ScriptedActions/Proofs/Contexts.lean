import Mathlib.Data.List.Induction
import ScriptedActions.Dispatch.Contexts
import ScriptedActions.Proofs.Tokens

/-!
# Contexts that are derived, bounded and cancelled

Two things are inherited from the context that another one is derived from, and in two ways. The
token is shared or put below, so what happens to a token later is seen by all contexts that hold it
or one below it. The deadline is copied, so nothing that is done to the one context later is
seen by the other.

What is true of a host after any steps is `Contexts.laws`: a context was cancelled if a token was hit
that its own token is, or stands under (`Tokens.Under`); and its deadline is the least of those that
were applied along its derivation (`Contexts.Applied`). Both are proved from what one step can do,
which is `Contexts.tokens_step` for the tokens and `Contexts.held_step` for the contexts.
-/

set_option autoImplicit false

namespace ScriptedActions

/-! ## What a step does -/

namespace Contexts

variable {s : Contexts}

/-- Tokens stand below older ones, and contexts hold tokens that there are. -/
structure IsSound (s : Contexts) : Prop where
  ordered : s.tokens.Ordered
  held : ∀ c ∈ s.held, c.token < s.tokens.nodes.size

theorem isSound_empty : empty.IsSound := by
  constructor
  · intro t n p hn
    simp [empty, Tokens.empty] at hn
  · exact nofun

theorem IsSound.token_lt (h : s.IsSound) {i : Nat} {c : Context} (hc : s.held[i]? = some c) :
    c.token < s.tokens.nodes.size :=
  h.held c (List.mem_of_getElem? hc)

/-- **What a step does to the tokens**: nothing, or it makes one below an old one, or it cancels
one. -/
theorem tokens_step (h : s.IsSound) (now : Nat) (e : ContextStep) :
    ((s.step now e).tokens = s.tokens ∧ s.hit? e = none) ∨
    (∃ parent, (∀ p ∈ parent, p < s.tokens.nodes.size) ∧
      (s.step now e).tokens = (s.tokens.make parent).2 ∧ s.hit? e = none) ∨
    ∃ a, s.hit? e = some a ∧ a < s.tokens.nodes.size ∧
      (s.step now e).tokens = s.tokens.cancel a := by
  have hkept : ∀ i f, (∀ c ts, (f c ts).2 = ts) → (s.derive i f).tokens = s.tokens := by
    intro i f hf
    unfold derive
    split
    · rfl
    · exact hf _ _
  -- only `token`, `new`, `withTimeout` and `child` make a token, and only the last two steps cancel
  cases e with
  | token parent =>
    simp only [step]
    split
    case isTrue hparent =>
      refine .inr (.inl ⟨parent, fun p hp => ?_, rfl, rfl⟩)
      cases hp
      simpa [hasToken] using hparent
    case isFalse => exact .inl ⟨rfl, rfl⟩
  | new => exact .inr (.inl ⟨none, nofun, rfl, rfl⟩)
  | withTimeout timeout => exact .inr (.inl ⟨none, nofun, rfl, rfl⟩)
  | within i timeout => exact .inl ⟨hkept i _ fun _ _ => rfl, rfl⟩
  | withDeadline i d => exact .inl ⟨hkept i _ fun _ _ => rfl, rfl⟩
  | clone i => exact .inl ⟨hkept i _ fun _ _ => rfl, rfl⟩
  | withToken i t =>
    simp only [step]
    split
    · exact .inl ⟨hkept i _ fun _ _ => rfl, rfl⟩
    · exact .inl ⟨rfl, rfl⟩
  | child i =>
    simp only [step, derive]
    cases hi : s.held[i]? with
    | none => exact .inl ⟨rfl, rfl⟩
    | some c =>
      refine .inr (.inl ⟨some c.token, fun p hp => ?_, rfl, rfl⟩)
      cases hp
      exact h.token_lt hi
  | cancel i =>
    simp only [step, hit?]
    cases hi : s.held[i]? with
    | none => exact .inl ⟨rfl, rfl⟩
    | some c => exact .inr (.inr ⟨c.token, rfl, h.token_lt hi, rfl⟩)
  | cancelToken t =>
    simp only [step, hit?]
    split
    case isTrue ht => exact .inr (.inr ⟨t, rfl, by simpa [hasToken] using ht, rfl⟩)
    case isFalse => exact .inl ⟨rfl, rfl⟩

/-- The earlier of two deadlines, if there are any. -/
def earlier (old bound : Option Nat) : Option Nat :=
  bound.elim old fun d => some (old.elim d fun e => min e d)

theorem deadline_within (c : Context) (now timeout : Nat) :
    (c.within now timeout).deadline = earlier c.deadline (Clock.after? now timeout) := by
  unfold Context.within
  cases Clock.after? now timeout <;> rfl

theorem token_within (c : Context) (now timeout : Nat) : (c.within now timeout).token = c.token := by
  unfold Context.within
  cases Clock.after? now timeout <;> rfl

/-- The deadline that a context is derived with, before the step applies its own. -/
def Inherits (s : Contexts) (old : Option Nat) : Option Nat → Prop
  | none => old = none
  | some i => ∃ c, s.held[i]? = some c ∧ c.deadline = old

/-- A host comes to hold nothing more, or a context that holds a token which there is, and whose
deadline is the one it inherits or the one that the step applies. -/
def Adds (s : Contexts) (now : Nat) (e : ContextStep) (s' : Contexts) : Prop :=
  s'.held = s.held ∨
    ∃ c old, s'.held = s.held ++ [c] ∧ c.token < s'.tokens.nodes.size ∧
      s.Inherits old e.source? ∧ c.deadline = earlier old (e.bound? now)

theorem adds_fresh {now : Nat} {e : ContextStep} (hsource : e.source? = none)
    {f : Context → Context} (htoken : ∀ c, (f c).token = c.token)
    (hdeadline : ∀ c : Context, c.deadline = none →
      (f c).deadline = earlier none (e.bound? now)) : s.Adds now e (s.fresh f) := by
  refine .inr ⟨_, none, rfl, ?_, ?_, hdeadline _ rfl⟩
  · rw [htoken]
    simp [fresh, Context.ofToken, Tokens.make]
  · rw [hsource]
    rfl

theorem adds_derive {now : Nat} {e : ContextStep} {i : Nat} (hsource : e.source? = some i)
    {f : Context → Tokens → Context × Tokens}
    (htoken : ∀ c, s.held[i]? = some c → (f c s.tokens).1.token < (f c s.tokens).2.nodes.size)
    (hdeadline : ∀ c : Context, (f c s.tokens).1.deadline = earlier c.deadline (e.bound? now)) :
    s.Adds now e (s.derive i f) := by
  unfold derive
  cases hi : s.held[i]? with
  | none => exact .inl rfl
  | some c =>
    refine .inr ⟨_, _, rfl, htoken c hi, ?_, hdeadline c⟩
    rw [hsource]
    exact ⟨c, hi, rfl⟩

/-- **What a step does to the contexts**, one case for each step. -/
theorem held_step (h : s.IsSound) (now : Nat) (e : ContextStep) : s.Adds now e (s.step now e) := by
  cases e with
  | token parent =>
    left
    simp only [step]
    split <;> rfl
  | new => exact adds_fresh rfl (fun _ => rfl) fun _ hnone => hnone
  | withTimeout timeout =>
    refine adds_fresh rfl (fun c => token_within c now timeout) fun c hnone => ?_
    rw [deadline_within, hnone]
    rfl
  | within i timeout =>
    refine adds_derive rfl (fun c hi => ?_) fun c => deadline_within c now timeout
    rw [token_within]
    exact h.token_lt hi
  | withDeadline i d =>
    refine adds_derive rfl (fun c hi => ?_) fun _ => rfl
    show c.token < s.tokens.nodes.size
    exact h.token_lt hi
  | clone i => exact adds_derive rfl (fun c hi => h.token_lt hi) fun _ => rfl
  | child i =>
    exact adds_derive rfl (fun c hi => by simp [Context.child, Tokens.make]) fun _ => rfl
  | withToken i t =>
    simp only [step]
    split
    case isTrue ht =>
      have hlt : t < s.tokens.nodes.size := by simpa [hasToken] using ht
      exact adds_derive rfl (fun _ _ => hlt) fun _ => rfl
    case isFalse => exact .inl rfl
  | cancel i =>
    left
    simp only [step, hit?]
    cases s.held[i]? <;> rfl
  | cancelToken t =>
    left
    simp only [step, hit?]
    split <;> rfl

theorem grows_step (h : s.IsSound) (now : Nat) (e : ContextStep) :
    s.tokens.Grows (s.step now e).tokens := by
  rcases tokens_step h now e with ⟨hsame, -⟩ | ⟨parent, -, hmade, -⟩ | ⟨a, -, -, hcancelled⟩
  · rw [hsame]
    exact .refl _
  · rw [hmade]
    exact Tokens.grows_make _ _
  · rw [hcancelled]
    exact Tokens.grows_cancel _ _

theorem IsSound.step (h : s.IsSound) (now : Nat) (e : ContextStep) : (s.step now e).IsSound := by
  have htokens : (s.step now e).tokens.Ordered ∧
      s.tokens.nodes.size ≤ (s.step now e).tokens.nodes.size := by
    rcases tokens_step h now e with ⟨hsame, -⟩ | ⟨parent, hparent, hmade, -⟩ |
      ⟨a, -, -, hcancelled⟩
    · rw [hsame]
      exact ⟨h.ordered, Nat.le_refl _⟩
    · rw [hmade, Tokens.size_make]
      exact ⟨h.ordered.make hparent, Nat.le_succ _⟩
    · rw [hcancelled, Tokens.size_cancel]
      exact ⟨h.ordered.cancel a, Nat.le_refl _⟩
  refine ⟨htokens.1, fun c hc => ?_⟩
  rcases held_step h now e with hsame | ⟨c', old, hheld, htoken, -, -⟩
  · rw [hsame] at hc
    exact Nat.lt_of_lt_of_le (h.held c hc) htokens.2
  · rw [hheld, List.mem_append, List.mem_singleton] at hc
    rcases hc with hc | rfl
    · exact Nat.lt_of_lt_of_le (h.held c hc) htokens.2
    · exact htoken

/-! ## What steps come to -/

theorem run_append (s : Contexts) (first second : List (Nat × ContextStep)) :
    s.run (first ++ second) = (s.run first).run second :=
  List.foldl_append

theorem IsSound.run (h : s.IsSound) (steps : List (Nat × ContextStep)) : (s.run steps).IsSound := by
  induction steps generalizing s with
  | nil => exact h
  | cons e rest ih => exact ih (h.step e.1 e.2)

theorem grows_run (h : s.IsSound) (steps : List (Nat × ContextStep)) :
    s.tokens.Grows (s.run steps).tokens := by
  induction steps generalizing s with
  | nil => exact .refl _
  | cons e rest ih => exact (grows_step h e.1 e.2).trans (ih (h.step e.1 e.2))

/-- **A context is never changed.** -/
theorem held_run (h : s.IsSound) (steps : List (Nat × ContextStep)) {i : Nat} {c : Context}
    (hc : s.held[i]? = some c) : (s.run steps).held[i]? = some c := by
  induction steps generalizing s with
  | nil => exact hc
  | cons e rest ih =>
    refine ih (h.step e.1 e.2) ?_
    rcases held_step h e.1 e.2 with hsame | ⟨c', old, hheld, -⟩
    · rw [hsame, hc]
    · rw [hheld, List.getElem?_append_left (List.getElem?_eq_some_iff.mp hc).1, hc]

/-! ## Cancellations -/

/-- A step among some hit a token. -/
def Hit (steps : List (Nat × ContextStep)) (t : Nat) : Prop :=
  ∃ before e after, steps = before ++ e :: after ∧ (empty.run before).hit? e.2 = some t

theorem hit_append (steps : List (Nat × ContextStep)) (e : Nat × ContextStep) (t : Nat) :
    Hit (steps ++ [e]) t ↔ Hit steps t ∨ (empty.run steps).hit? e.2 = some t := by
  constructor
  · rintro ⟨before, e', after, hsteps, hhit⟩
    rcases List.eq_nil_or_concat after with rfl | ⟨init, last, rfl⟩
    · obtain ⟨rfl, he⟩ := List.append_inj' hsteps rfl
      cases he
      exact .inr hhit
    · have hsplit : steps ++ [e] = (before ++ e' :: init) ++ [last] := by simpa using hsteps
      obtain ⟨rfl, -⟩ := List.append_inj' hsplit rfl
      exact .inl ⟨before, e', init, rfl, hhit⟩
  · rintro (⟨before, e', after, rfl, hhit⟩ | hhit)
    · exact ⟨before, e', after ++ [e], by simp, hhit⟩
    · exact ⟨steps, e, [], rfl, hhit⟩

/-- **The tokens that were cancelled themselves are those that steps hit.** The induction is on the
steps from the last one on. -/
theorem isHit_run (steps : List (Nat × ContextStep)) (t : Nat) :
    (empty.run steps).tokens.IsHit t ↔ Hit steps t := by
  induction steps using List.reverseRecOn with
  | nil =>
    constructor
    · rintro ⟨n, hn, -⟩
      simp [run, empty, Tokens.empty] at hn
    · rintro ⟨before, e, after, hsteps, -⟩
      simp at hsteps
  | append_singleton steps e ih =>
    rw [hit_append, ← ih, run_append]
    rcases tokens_step (isSound_empty.run steps) e.1 e.2 with ⟨hsame, hnone⟩ |
      ⟨parent, -, hmade, hnone⟩ | ⟨a, hhit, ha, hcancelled⟩
    · show ((empty.run steps).step e.1 e.2).tokens.IsHit t ↔ _
      rw [hsame, hnone]
      simp
    · show ((empty.run steps).step e.1 e.2).tokens.IsHit t ↔ _
      rw [hmade, hnone, Tokens.isHit_make]
      simp
    · show ((empty.run steps).step e.1 e.2).tokens.IsHit t ↔ _
      rw [hcancelled, hhit, Tokens.isHit_cancel ha]
      simp

/-- **A context was cancelled if and only if its token was hit or one above it.** -/
theorem isCancelled_run (steps : List (Nat × ContextStep)) (c : Context) :
    c.isCancelled (empty.run steps).tokens ↔
      ∃ t, Hit steps t ∧ (empty.run steps).tokens.Under c.token t := by
  unfold Context.isCancelled
  rw [Tokens.isCancelled_iff (isSound_empty.run steps).ordered]
  constructor
  · rintro ⟨a, n, hunder, hn, hflag⟩
    exact ⟨a, (isHit_run steps a).mp ⟨n, hn, hflag⟩, hunder⟩
  · rintro ⟨a, hhit, hunder⟩
    obtain ⟨n, hn, hflag⟩ := (isHit_run steps a).mpr hhit
    exact ⟨a, n, hunder, hn, hflag⟩

/-- A step that hits no token which is above that of a context leaves the context alone. -/
theorem isCancelled_step (h : s.IsSound) (now : Nat) (e : ContextStep) {c : Context}
    (hc : c.token < s.tokens.nodes.size)
    (hmiss : ∀ t, s.hit? e = some t → ¬ s.tokens.Under c.token t) :
    c.isCancelled (s.step now e).tokens = c.isCancelled s.tokens := by
  have hgrows := grows_step h now e
  have hsound := h.step now e
  unfold Context.isCancelled
  rw [Bool.eq_iff_iff, Tokens.isCancelled_iff hsound.ordered, Tokens.isCancelled_iff h.ordered]
  constructor
  · rintro ⟨a, n, hunder, hn, hflag⟩
    rw [hgrows.under_iff h.ordered hc] at hunder
    have hhit : s.tokens.IsHit a := by
      have hstep : (s.step now e).tokens.IsHit a := ⟨n, hn, hflag⟩
      rcases tokens_step h now e with ⟨hsame, -⟩ | ⟨parent, -, hmade, -⟩ |
        ⟨t, hhit, ht, hcancelled⟩
      · rwa [hsame] at hstep
      · rwa [hmade, Tokens.isHit_make] at hstep
      · rw [hcancelled, Tokens.isHit_cancel ht] at hstep
        rcases hstep with hold | rfl
        · exact hold
        · exact absurd hunder (hmiss t hhit)
    obtain ⟨m, hm, hflag'⟩ := hhit
    exact ⟨a, m, hunder, hm, hflag'⟩
  · rintro ⟨a, n, hunder, hn, hflag⟩
    obtain ⟨n', hn', -, hflag'⟩ := hgrows a n hn
    exact ⟨a, n', hunder.mono hgrows, hn', hflag' hflag⟩

/-! ## Deadlines -/

/-- The deadlines that were applied on the way from nothing to a context: those on the way to the
context that it was derived from, and the one of the step that derived it. -/
inductive Applied (steps : List (Nat × ContextStep)) : Nat → List Nat → Prop
  | first {before after : List (Nat × ContextStep)} {now : Nat} {e : ContextStep}
    (hsteps : steps = before ++ (now, e) :: after)
    (hmakes : ((empty.run before).step now e).held.length = (empty.run before).held.length + 1)
    (hsource : e.source? = none) :
    Applied steps (empty.run before).held.length (e.bound? now).toList
  | derived {before after : List (Nat × ContextStep)} {now : Nat} {e : ContextStep} {i : Nat}
    {ds : List Nat} (hsteps : steps = before ++ (now, e) :: after)
    (hmakes : ((empty.run before).step now e).held.length = (empty.run before).held.length + 1)
    (hsource : e.source? = some i) (hds : Applied steps i ds) :
    Applied steps (empty.run before).held.length (ds ++ (e.bound? now).toList)

theorem Applied.append {steps : List (Nat × ContextStep)} {i : Nat} {ds : List Nat}
    (h : Applied steps i ds) (later : List (Nat × ContextStep)) :
    Applied (steps ++ later) i ds := by
  induction h with
  | first hsteps hmakes hsource =>
    exact .first (by rw [hsteps, List.append_assoc, List.cons_append]) hmakes hsource
  | derived hsteps hmakes hsource _ ih =>
    exact .derived (by rw [hsteps, List.append_assoc, List.cons_append]) hmakes hsource ih

theorem min?_append_bound (ds : List Nat) (bound : Option Nat) :
    (ds ++ bound.toList).min? = earlier ds.min? bound := by
  cases bound with
  | none => simp [earlier]
  | some d => cases ds <;> simp [earlier, List.min?, List.foldl_append]

/-- What a step that makes a context makes. -/
theorem held_of_makes {before : List (Nat × ContextStep)} (after : List (Nat × ContextStep))
    {now : Nat} {e : ContextStep}
    (hmakes : ((empty.run before).step now e).held.length = (empty.run before).held.length + 1) :
    ∃ c old, (empty.run (before ++ (now, e) :: after)).held[(empty.run before).held.length]? =
        some c ∧ (empty.run before).Inherits old e.source? ∧
      c.deadline = earlier old (e.bound? now) := by
  have hsound := isSound_empty.run before
  rcases held_step hsound now e with hsame | ⟨c, old, hheld, -, hsource, hdeadline⟩
  · rw [hsame] at hmakes
    omega
  · refine ⟨c, old, ?_, hsource, hdeadline⟩
    rw [run_append]
    refine held_run (hsound.step now e) after ?_
    rw [hheld, List.getElem?_concat_length]

/-- **The deadline of a context is the least of those that were applied on the way to it.** -/
theorem deadline_of_applied {steps : List (Nat × ContextStep)} {i : Nat} {ds : List Nat}
    (h : Applied steps i ds) {c : Context} (hc : (empty.run steps).held[i]? = some c) :
    c.deadline = ds.min? := by
  induction h generalizing c with
  | @first before after now e hsteps hmakes hsource =>
    obtain ⟨c', old, hheld, hinherits, hdeadline⟩ := held_of_makes after hmakes
    rw [hsteps, hheld] at hc
    cases hc
    rw [hsource] at hinherits
    cases hinherits
    rw [hdeadline]
    exact (min?_append_bound [] _).symm
  | @derived before after now e i ds hsteps hmakes hsource _ ih =>
    obtain ⟨c', old, hheld, hinherits, hdeadline⟩ := held_of_makes after hmakes
    rw [hsteps, hheld] at hc
    cases hc
    rw [hsource] at hinherits
    obtain ⟨b, hb, rfl⟩ := hinherits
    have hb' : (empty.run steps).held[i]? = some b := by
      rw [hsteps, run_append]
      exact held_run (isSound_empty.run before) _ hb
    rw [hdeadline, min?_append_bound, ih hb']

/-- Every context was made and derived somehow. -/
theorem exists_applied (steps : List (Nat × ContextStep)) {i : Nat}
    (hi : i < (empty.run steps).held.length) : ∃ ds, Applied steps i ds := by
  induction steps using List.reverseRecOn generalizing i with
  | nil => simp [run, empty] at hi
  | append_singleton steps e ih =>
    by_cases hold : i < (empty.run steps).held.length
    · obtain ⟨ds, hds⟩ := ih hold
      exact ⟨ds, hds.append [e]⟩
    · -- the last step made it, from a context that was there already or from nothing
      rw [run_append] at hi
      have hi' : i < ((empty.run steps).step e.1 e.2).held.length := hi
      rcases held_step (isSound_empty.run steps) e.1 e.2 with hsame | ⟨c, old, hheld, -, hsource, -⟩
      · rw [hsame] at hi'
        exact absurd hi' hold
      · have hmakes : ((empty.run steps).step e.1 e.2).held.length =
            (empty.run steps).held.length + 1 := by
          rw [hheld, List.length_append, List.length_singleton]
        obtain rfl : i = (empty.run steps).held.length := by omega
        cases hfrom : e.2.source? with
        | none => exact ⟨_, .first rfl hmakes hfrom⟩
        | some j =>
          rw [hfrom] at hsource
          obtain ⟨b, hb, -⟩ := hsource
          obtain ⟨ds, hds⟩ := ih (List.getElem?_eq_some_iff.mp hb).1
          exact ⟨_, .derived rfl hmakes hfrom (hds.append [e])⟩

/-! ## Ends of contexts -/

theorem isDone_eq_shouldStop (c : Context) (ts : Tokens) (now : Nat) :
    c.isDone ts now = c.shouldStop ts now := by
  unfold Context.isDone Context.shouldStop Context.isExpired
  cases c.deadline with
  | none => simp
  | some d => rfl

/-- What must stop must stop ever after. -/
theorem shouldStop_run (h : s.IsSound) (later : List (Nat × ContextStep)) {c : Context}
    {now now' : Nat} (hnow : now ≤ now') (hstop : c.shouldStop s.tokens now) :
    c.shouldStop (s.run later).tokens now' := by
  unfold Context.shouldStop at hstop ⊢
  rw [Bool.or_eq_true] at hstop ⊢
  rcases hstop with hcancelled | hexpired
  · left
    exact (grows_run h later).isCancelled h.ordered (h.run later).ordered hcancelled
  · right
    unfold Context.isExpired at hexpired ⊢
    rw [Option.any_eq_true] at hexpired ⊢
    obtain ⟨d, hd, hle⟩ := hexpired
    exact ⟨d, hd, decide_eq_true (Nat.le_trans (of_decide_eq_true hle) hnow)⟩

/-- **A child is cancelled with its parent, and not the other way round**: cancelling it, or a copy of
it, or what stands below it, does not reach the parent. -/
theorem child_apart (h : s.IsSound) {i : Nat} {c : Context} (hc : s.held[i]? = some c) (now : Nat) :
    ∃ x, (s.step now (.child i)).held = s.held ++ [x] ∧ x.deadline = c.deadline ∧
      ∀ later, let s' := (s.step now (.child i)).run later
        s'.tokens.Under x.token c.token ∧
        ∀ j y now', s'.held[j]? = some y → s'.tokens.Under y.token x.token →
          c.isCancelled (s'.step now' (.cancel j)).tokens = c.isCancelled s'.tokens := by
  have hstep : s.step now (.child i) =
      ⟨(c.child s.tokens).2, s.held ++ [(c.child s.tokens).1]⟩ := by
    simp only [step, derive, hc]
  have hlt : c.token < s.tokens.nodes.size := h.token_lt hc
  have hsound := h.step now (.child i)
  have hgrows := grows_step h now (.child i)
  rw [hstep] at hsound hgrows ⊢
  refine ⟨_, rfl, rfl, fun later => ?_⟩
  have hlater := grows_run hsound later
  have hsound' := hsound.run later
  have hnode : (c.child s.tokens).2.nodes[(c.child s.tokens).1.token]? =
      some ⟨some c.token, false⟩ :=
    (Tokens.getElem?_make s.tokens (some c.token) _).trans (if_pos rfl)
  constructor
  · exact .mono hlater (.above hnode rfl (.self c.token))
  · intro j y now' hj hunder
    obtain ⟨n', hn', -⟩ := (hgrows.trans hlater) _ _ (Array.getElem?_eq_getElem hlt)
    refine isCancelled_step hsound' now' (.cancel j) (Array.getElem?_eq_some_iff.mp hn').1
      fun t ht habove => ?_
    simp only [hit?, hj, Option.map_some, Option.some.injEq] at ht
    subst ht
    -- older tokens stand above, and the parent holds an older one than the child
    have hnotAfter := habove.le hsound'.ordered
    have hchild := hunder.le hsound'.ordered
    have hnew : s.tokens.nodes.size ≤ y.token := hchild
    omega

/-- **What is true of every context after any steps.** It was cancelled if and only if a step hit its
token or one above it. Its deadline is the least of those that were applied along its derivation. No
later step changes the context or what stands above its token. Once it must stop it must stop for
ever, and waiting for it is over exactly then. A step that hits nothing above its token leaves it
alone; so does the cancellation of a child, or of a copy of a child. A copy holds the same token, and
a context with another token has that token and the deadline of this one. -/
theorem laws (steps : List (Nat × ContextStep)) {i : Nat} {c : Context}
    (hc : (empty.run steps).held[i]? = some c) :
    let s := empty.run steps
    (c.isCancelled s.tokens ↔ ∃ t, Hit steps t ∧ s.tokens.Under c.token t) ∧
    ((∃ ds, Applied steps i ds) ∧ ∀ ds, Applied steps i ds → c.deadline = ds.min?) ∧
    (∀ later, (s.run later).held[i]? = some c ∧
      ∀ t, (s.run later).tokens.Under c.token t ↔ s.tokens.Under c.token t) ∧
    (∀ later now now', now ≤ now' → c.shouldStop s.tokens now →
      c.shouldStop (s.run later).tokens now') ∧
    (∀ now, c.isDone s.tokens now = c.shouldStop s.tokens now) ∧
    (∀ now e, (∀ t, s.hit? e = some t → ¬ s.tokens.Under c.token t) →
      c.isCancelled (s.step now e).tokens = c.isCancelled s.tokens) ∧
    (∀ now, ∃ x, (s.step now (.child i)).held = s.held ++ [x] ∧ x.deadline = c.deadline ∧
      ∀ later, let s' := (s.step now (.child i)).run later
        s'.tokens.Under x.token c.token ∧
        ∀ j y now', s'.held[j]? = some y → s'.tokens.Under y.token x.token →
          c.isCancelled (s'.step now' (.cancel j)).tokens = c.isCancelled s'.tokens) ∧
    (∀ now, (s.step now (.clone i)).held = s.held ++ [c]) ∧
    ∀ now t, s.hasToken t → (s.step now (.withToken i t)).held = s.held ++ [⟨t, c.deadline⟩] := by
  intro s
  have hsound : s.IsSound := isSound_empty.run steps
  have hlt : c.token < s.tokens.nodes.size := hsound.token_lt hc
  refine ⟨isCancelled_run steps c,
    ⟨exists_applied steps (List.getElem?_eq_some_iff.mp hc).1,
      fun ds hds => deadline_of_applied hds hc⟩,
    fun later => ⟨held_run hsound later hc, fun t =>
      (grows_run hsound later).under_iff hsound.ordered hlt⟩,
    fun later now now' => shouldStop_run hsound later, isDone_eq_shouldStop c s.tokens,
    fun now e => isCancelled_step hsound now e hlt, child_apart hsound hc, fun now => ?_,
    fun now t ht => ?_⟩
  · simp only [step, derive, s, hc]
  · simp only [step, derive, s, hc, if_pos ht]
    rfl

/-- A context is bounded, a copy of a child of it is cancelled, and the context that it was bounded
from is bounded anew. -/
def family : List (Nat × ContextStep) :=
  [(0, .new), (1, .within 0 10), (2, .child 1), (3, .clone 2), (4, .cancel 3), (5, .within 0 2)]

/-- The bounded context of this family is not cancelled, the child is; and its deadline is its own. -/
theorem laws_family :
    let s := empty.run family
    let c : Context := ⟨0, some 11⟩
    s.held[1]? = some c ∧ s.held[2]? = some ⟨1, some 11⟩ ∧ s.held[4]? = some ⟨0, some 7⟩ ∧
      (∃ ds, Applied family 1 ds ∧ c.deadline = ds.min?) ∧
      (¬ ∃ t, Hit family t ∧ s.tokens.Under 0 t) ∧ ∃ t, Hit family t ∧ s.tokens.Under 1 t := by
  intro s c
  have hc : s.held[1]? = some c := by decide
  have hchild : s.held[2]? = some ⟨1, some 11⟩ := by decide
  obtain ⟨hcancelled, ⟨⟨ds, hds⟩, hdeadline⟩, -⟩ := laws family hc
  obtain ⟨hcancelled', -⟩ := laws family hchild
  have hnot : ¬ c.isCancelled s.tokens := by decide +kernel
  have hyes : (⟨1, some 11⟩ : Context).isCancelled s.tokens := by decide +kernel
  exact ⟨hc, hchild, by decide, ⟨ds, hds, hdeadline ds hds⟩, fun h => hnot (hcancelled.mpr h),
    hcancelled'.mp hyes⟩

end Contexts

end ScriptedActions
