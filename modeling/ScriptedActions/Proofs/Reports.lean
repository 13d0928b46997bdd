import Mathlib.Data.List.Perm.Basic
import ScriptedActions.Log

/-!
# Laws of reporting

What goes through a list and reports as it goes gives what it would give without the log, and its log
is made of the logs of its steps, in their order.

`Logged.Adds` compares two computations: one gives what the other gives, and reports all that the
other one reports, in the same order, with some reports in between. Two computations that go on
after one another add what each of them adds, so passing over items that give nothing is told by what
these items report.
-/

set_option autoImplicit false

namespace ScriptedActions.Logged

variable {α β : Type}

theorem andThen_assoc {γ : Type} (x : Logged α) (f : α → Logged β) (g : β → Logged γ) :
    x >>= f >>= g = x >>= fun a => f a >>= g :=
  congrArg (Logged.mk _) (List.append_assoc x.events _ _)

/-! ## Going through a list -/

theorem value_foldlM (f : β → α → Logged β) (items : List α) (b : β) :
    (items.foldlM f b).value = items.foldl (fun b a => (f b a).value) b := by
  induction items generalizing b with
  | nil => rfl
  | cons a rest ih => exact ih (f b a).value

theorem foldlM_append (f : β → α → Logged β) (items more : List α) (b : β) :
    (items ++ more).foldlM f b = items.foldlM f b >>= fun b => more.foldlM f b := by
  induction items generalizing b with
  | nil => rfl
  | cons a rest ih =>
    rw [List.cons_append, List.foldlM_cons, List.foldlM_cons, andThen_assoc]
    exact bind_congr ih

theorem foldlM_flatMap {γ : Type} (f : β → α → Logged β) (g : γ → List α) (items : List γ) (b : β) :
    (items.flatMap g).foldlM f b = items.foldlM (fun b c => (g c).foldlM f b) b := by
  induction items generalizing b with
  | nil => rfl
  | cons c rest ih =>
    rw [List.flatMap_cons, foldlM_append, List.foldlM_cons]
    exact bind_congr ih

theorem foldlM_congr {f g : β → α → Logged β} {items : List α}
    (h : ∀ b a, a ∈ items → f b a = g b a) (b : β) : items.foldlM f b = items.foldlM g b := by
  induction items generalizing b with
  | nil => rfl
  | cons a rest ih =>
    rw [List.foldlM_cons, List.foldlM_cons, h b a (.head _)]
    exact bind_congr fun b => ih (fun b a ha => h b a (.tail _ ha)) b

/-- **What every step keeps, of the value and of the log so far, the whole keeps.** -/
theorem foldlM_run {P : β → List Event → Prop} {f : β → α → Logged β} {items : List α}
    (h : ∀ b log a, a ∈ items → P b log → P (f b a).value (log ++ (f b a).events))
    (log : List Event) {b : β} (hb : P b log) :
    P (items.foldlM f b).value (log ++ (items.foldlM f b).events) := by
  induction items generalizing b log with
  | nil => simpa using hb
  | cons a rest ih =>
    rw [List.foldlM_cons, value_bind, events_bind, ← List.append_assoc]
    exact ih (fun b log a ha => h b log a (.tail _ ha)) _ (h b log a (.head _) hb)

theorem foldlM_keeps {P : β → Prop} {f : β → α → Logged β} (h : ∀ b a, P b → P (f b a).value)
    (items : List α) {b : β} (hb : P b) : P (items.foldlM f b).value :=
  foldlM_run (P := fun b _ => P b) (fun b _ a _ => h b a) [] hb

/-- The log is made of the logs of the steps. -/
theorem events_foldlM {R : α → List Event → Prop} {f : β → α → Logged β} {items : List α}
    (h : ∀ b a, a ∈ items → R a (f b a).events) (b : β) :
    ∃ blocks, List.Forall₂ R items blocks ∧ (items.foldlM f b).events = blocks.flatten := by
  induction items generalizing b with
  | nil => exact ⟨[], .nil, rfl⟩
  | cons a rest ih =>
    obtain ⟨blocks, hblocks, hevents⟩ := ih (fun b a ha => h b a (.tail _ ha)) (f b a).value
    exact ⟨_, .cons (h b a (.head _)) hblocks, congrArg ((f b a).events ++ ·) hevents⟩

theorem events_mapM {f : α → Logged β} (event : α → Event) (h : ∀ a, (f a).events = [event a])
    (items : List α) : (items.mapM f).events = items.map event := by
  -- the results are collected in reverse, and the log does not depend on them
  suffices hloop : ∀ done, (List.mapM.loop f items done).events = items.map event from hloop []
  induction items with
  | nil =>
    intro done
    rfl
  | cons a rest ih =>
    intro done
    unfold List.mapM.loop
    rw [events_bind, h, ih]
    rfl

/-! ## Additional reports -/

/-- One computation gives what another one gives, and reports more on its way. -/
structure Adds (reports : List Event) (x y : Logged α) : Prop where
  value : x.value = y.value
  sublist : y.events.Sublist x.events
  perm : x.events.Perm (y.events ++ reports)

namespace Adds

variable {x y : Logged α} {reports more : List Event}

theorem refl (x : Logged α) : Adds [] x x :=
  ⟨rfl, .refl _, .of_eq (List.append_nil _).symm⟩

theorem of_pure (a : α) (reports : List Event) : Adds reports ⟨a, reports⟩ (pure a) :=
  ⟨rfl, List.nil_sublist _, .refl _⟩

theorem bind {f g : α → Logged β} (h : Adds reports x y)
    (hnext : Adds more (f x.value) (g x.value)) : Adds (reports ++ more) (x >>= f) (y >>= g) where
  value := by
    rw [value_bind, value_bind, ← h.value]
    exact hnext.value
  sublist := by
    rw [events_bind, events_bind, ← h.value]
    exact h.sublist.append hnext.sublist
  perm := by
    rw [events_bind, events_bind, ← h.value]
    have hparts := h.perm.append hnext.perm
    have hswap : (reports ++ (g x.value).events).Perm ((g x.value).events ++ reports) :=
      List.perm_append_comm
    refine hparts.trans ?_
    rw [List.append_assoc, List.append_assoc]
    refine List.Perm.append_left _ ?_
    rw [← List.append_assoc, ← List.append_assoc]
    exact hswap.append_right _

theorem andThen (h : Adds reports x y) (f : α → Logged β) : Adds reports (x >>= f) (y >>= f) := by
  have hbind := h.bind (.refl (f x.value)) (f := f) (g := f)
  rwa [List.append_nil] at hbind

/-- **Passing over items that give nothing** leaves out what they report. -/
theorem foldlM {f g : β → α → Logged β} (keep : α → Bool) {reports : α → List Event}
    {items : List α}
    (hkept : ∀ a ∈ items, keep a → ∀ b, Adds (reports a) (f b a) (g b a))
    (hleft : ∀ a ∈ items, keep a = false → ∀ b, Adds (reports a) (f b a) (pure b)) (b : β) :
    Adds (items.flatMap reports) (items.foldlM f b) ((items.filter keep).foldlM g b) := by
  induction items generalizing b with
  | nil => exact refl (pure b)
  | cons a rest ih =>
    have ih' := ih (fun a ha => hkept a (.tail _ ha)) fun a ha => hleft a (.tail _ ha)
    rw [List.flatMap_cons, List.foldlM_cons, List.filter_cons]
    cases hkeep : keep a with
    | true =>
      rw [if_pos rfl, List.foldlM_cons]
      exact (hkept a (.head _) hkeep b).bind (ih' _)
    | false =>
      rw [if_neg Bool.false_ne_true]
      have hrest : Adds (reports a ++ rest.flatMap reports) (f b a >>= fun b => rest.foldlM f b)
          (pure b >>= fun b => (rest.filter keep).foldlM g b) :=
        (hleft a (.head _) hkeep b).bind (ih' _)
      exact hrest

theorem events_eq_iff (h : Adds reports x y) : x.events = y.events ↔ reports = [] := by
  constructor
  · intro heq
    have hlength := h.perm.length_eq
    rw [heq, List.length_append] at hlength
    exact List.eq_nil_of_length_eq_zero (by omega)
  · rintro rfl
    have hperm := h.perm
    rw [List.append_nil] at hperm
    exact (h.sublist.eq_of_length hperm.length_eq.symm).symm

end Adds

end ScriptedActions.Logged
