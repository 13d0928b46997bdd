import Mathlib.Data.List.Induction
import Mathlib.Data.String.Basic
import ScriptedActions.Table

/-!
# Laws of tables

What is found in a table after each of its operations. Few of these laws need the table to be
sorted: a name is looked up from the front, and both `insert` and `replace` change the first
binding of a name and nothing before it. That tables are sorted matters for their order, and for
a name having one binding only; `insert` keeps them so. The table of a list has the last binding
of every name, which is `mem_ofList`.
-/

set_option autoImplicit false

namespace ScriptedActions.Table

variable {α β : Type} (t : Table α)

/-- The names of a table are those that have a value. -/
theorem contains_iff_mem_keys (k : String) : t.contains k ↔ k ∈ t.keys := by
  induction t with
  | nil => simp [contains, get?, keys]
  | cons e rest ih =>
    obtain ⟨n, w⟩ := e
    simp only [contains, get?, keys, List.map_cons, List.mem_cons]
    split
    case isTrue hk => simp [hk]
    case isFalse hk =>
      rw [or_iff_right hk]
      exact ih

/-! ## Inserting -/

theorem get?_insert (j k : String) (v : α) :
    (t.insert k v).get? j = if j = k then some v else t.get? j := by
  induction t with
  | nil => rfl
  | cons e rest ih =>
    obtain ⟨n, w⟩ := e
    unfold insert
    split
    case isTrue hk =>
      subst hk
      simp only [get?]
      split <;> rfl
    case isFalse hk =>
      split
      case isTrue => rfl
      case isFalse =>
        simp only [get?, ih]
        split
        case isTrue hj =>
          subst hj
          rw [if_neg (Ne.symm hk)]
        case isFalse => rfl

/-- Of two bindings of a name the later one stays. -/
theorem insert_insert (k : String) (v w : α) : (t.insert k v).insert k w = t.insert k w := by
  induction t with
  | nil => simp [insert]
  | cons e rest ih =>
    obtain ⟨n, u⟩ := e
    by_cases hk : k = n
    · simp [insert, hk]
    · by_cases hlt : k < n
      · simp [insert, hk, hlt]
      · simp [insert, hk, hlt, ih]

theorem mem_keys_insert (j k : String) (v : α) :
    j ∈ (t.insert k v).keys ↔ j = k ∨ j ∈ t.keys := by
  rw [← contains_iff_mem_keys, ← contains_iff_mem_keys, contains, get?_insert]
  split
  case isTrue hj => simp [hj]
  case isFalse hj => simp [hj, contains]

/-- A name that stands behind all others is bound at the end. -/
theorem insert_eq_append {k : String} (v : α) (h : ∀ n ∈ t.keys, n < k) :
    t.insert k v = t ++ [(k, v)] := by
  induction t with
  | nil => rfl
  | cons e rest ih =>
    obtain ⟨n, w⟩ := e
    have hn : n < k := h n (.head _)
    unfold insert
    rw [if_neg hn.ne', if_neg hn.not_gt, ih fun j hj => h j (.tail _ hj)]
    rfl

theorem sorted_nil : Sorted ([] : Table α) := List.Pairwise.nil

theorem Sorted.insert {t : Table α} (h : t.Sorted) (k : String) (v : α) :
    (t.insert k v).Sorted := by
  induction t with
  | nil => exact List.pairwise_singleton _ k
  | cons e rest ih =>
    obtain ⟨n, w⟩ := e
    obtain ⟨hn, hrest⟩ := List.pairwise_cons.mp h
    unfold Table.insert
    split
    case isTrue hk =>
      subst hk
      exact h
    case isFalse hk =>
      split
      case isTrue hlt =>
        refine List.pairwise_cons.mpr ⟨fun j hj => ?_, h⟩
        rcases List.mem_cons.mp hj with rfl | hj
        · exact hlt
        · exact hlt.trans (hn j hj)
      case isFalse hlt =>
        refine List.pairwise_cons.mpr ⟨fun j hj => ?_, ih hrest⟩
        rcases (mem_keys_insert rest j k v).mp hj with rfl | hj
        · exact lt_of_le_of_ne (not_lt.mp hlt) (Ne.symm hk)
        · exact hn j hj

/-! ## Tables of lists -/

/-- In a sorted table a name is bound once, so looking it up finds every binding. -/
theorem Sorted.mem_iff {t : Table α} (h : t.Sorted) (k : String) (v : α) :
    (k, v) ∈ t ↔ t.get? k = some v := by
  induction t with
  | nil => simp [get?]
  | cons e rest ih =>
    obtain ⟨n, w⟩ := e
    obtain ⟨hn, hrest⟩ := List.pairwise_cons.mp h
    simp only [get?, List.mem_cons, Prod.mk.injEq]
    split
    case isTrue hk =>
      subst hk
      have hlater : (k, v) ∉ rest := fun hmem =>
        absurd (hn k (List.mem_map_of_mem hmem)) (lt_irrefl k)
      simp only [hlater, true_and, or_false, Option.some.injEq, eq_comm]
    case isFalse hk =>
      rw [or_iff_right fun hkv => hk hkv.1]
      exact ih hrest

/-- To bind a name to the value that it has changes nothing. -/
theorem Sorted.insert_self {t : Table α} (h : t.Sorted) {k : String} {v : α}
    (hk : t.get? k = some v) : t.insert k v = t := by
  induction t with
  | nil => cases hk
  | cons e rest ih =>
    obtain ⟨n, w⟩ := e
    obtain ⟨hn, hrest⟩ := List.pairwise_cons.mp h
    unfold Table.insert
    by_cases hkn : k = n
    · subst hkn
      simp only [get?, if_pos] at hk
      cases hk
      rw [if_pos rfl]
    · rw [get?, if_neg hkn] at hk
      have hlater : n < k := hn k ((contains_iff_mem_keys rest k).mp (by simp [contains, hk]))
      rw [if_neg hkn, if_neg hlater.not_gt, ih hrest hk]

theorem ofList_append (es : List (String × α)) (k : String) (v : α) :
    ofList (es ++ [(k, v)]) = (ofList es).insert k v := by
  unfold ofList
  rw [List.foldl_append]
  rfl

theorem sorted_ofList (es : List (String × α)) : (ofList es).Sorted := by
  induction es using List.reverseRecOn with
  | nil => exact sorted_nil
  | append_singleton es e ih =>
    rw [ofList_append]
    exact ih.insert e.1 e.2

/-- A table is made of its own bindings. -/
theorem ofList_of_sorted {t : Table α} (h : t.Sorted) : ofList t = t := by
  induction t using List.reverseRecOn with
  | nil => rfl
  | append_singleton es e ih =>
    unfold Sorted keys at h
    rw [List.map_append] at h
    obtain ⟨hes, -, hlast⟩ := List.pairwise_append.mp h
    rw [ofList_append, ih hes]
    exact insert_eq_append es e.2 fun n hn => hlast n hn e.1 (.head _)

/-- A binding counts in a list if its name is not bound again behind it. -/
def IsLast {κ : Type} (es : List (κ × α)) (k : κ) (v : α) : Prop :=
  ∃ before after, es = before ++ (k, v) :: after ∧ ∀ e ∈ after, e.1 ≠ k

theorem not_isLast_nil {κ : Type} {k : κ} {v : α} : ¬ IsLast [] k v := by
  simp [IsLast]

theorem isLast_cons {κ : Type} {e : κ × α} {es : List (κ × α)} {k : κ} {v : α} :
    IsLast (e :: es) k v ↔ e.1 = k ∧ e.2 = v ∧ (∀ e ∈ es, e.1 ≠ k) ∨ IsLast es k v := by
  constructor
  · rintro ⟨_ | ⟨e', before⟩, after, hes, hlast⟩
    · cases hes
      exact .inl ⟨rfl, rfl, hlast⟩
    · cases hes
      exact .inr ⟨before, after, rfl, hlast⟩
  · rintro (⟨rfl, rfl, hlast⟩ | ⟨before, after, rfl, hlast⟩)
    · exact ⟨[], es, rfl, hlast⟩
    · exact ⟨e :: before, after, rfl, hlast⟩

theorem isLast_append {κ : Type} (es : List (κ × α)) (j k : κ) (v w : α) :
    IsLast (es ++ [(j, w)]) k v ↔ j = k ∧ w = v ∨ j ≠ k ∧ IsLast es k v := by
  constructor
  · rintro ⟨before, after, hes, hlast⟩
    rcases List.eq_nil_or_concat after with rfl | ⟨after, e, rfl⟩
    · obtain ⟨-, he⟩ := List.append_inj' hes rfl
      cases he
      exact .inl ⟨rfl, rfl⟩
    · have hes' : es ++ [(j, w)] = (before ++ (k, v) :: after) ++ [e] := by simpa using hes
      obtain ⟨rfl, he⟩ := List.append_inj' hes' rfl
      cases he
      exact .inr ⟨hlast (j, w) (by simp), before, after, rfl,
        fun e he => hlast e (by simp [he])⟩
  · rintro (⟨rfl, rfl⟩ | ⟨hne, before, after, rfl, hlast⟩)
    · exact ⟨es, [], rfl, nofun⟩
    · refine ⟨before, after ++ [(j, w)], by simp, fun e he => ?_⟩
      rcases List.mem_append.mp he with he | he
      · exact hlast e he
      · rw [List.mem_singleton.mp he]
        exact hne

/-- **The table of a list has the bindings that count in it.** -/
theorem mem_ofList (es : List (String × α)) (k : String) (v : α) :
    (k, v) ∈ ofList es ↔ IsLast es k v := by
  induction es using List.reverseRecOn with
  | nil => simp [ofList, not_isLast_nil]
  | append_singleton es e ih =>
    obtain ⟨j, w⟩ := e
    rw [isLast_append, ← ih, ofList_append, ((sorted_ofList es).insert j w).mem_iff,
      (sorted_ofList es).mem_iff, get?_insert]
    by_cases hk : k = j
    · subst hk
      simp
    · simp [hk, Ne.symm hk]

theorem get?_ofList_eq_none {es : List (String × α)} {k : String} (h : ∀ e ∈ es, e.1 ≠ k) :
    (ofList es).get? k = none := by
  refine Option.eq_none_iff_forall_ne_some.mpr fun v hv => ?_
  obtain ⟨before, after, rfl, -⟩ :=
    (mem_ofList es k v).mp (((sorted_ofList es).mem_iff k v).mpr hv)
  exact h (k, v) (by simp) rfl

/-- A table is told by its bindings, since their order is that of their names. -/
theorem Sorted.eq_of_mem {t t' : Table α} (h : t.Sorted) (h' : t'.Sorted)
    (hmem : ∀ e, e ∈ t ↔ e ∈ t') : t = t' := by
  have hpairs : List.Pairwise (fun a b => a.1 < b.1) t := List.pairwise_map.mp h
  have hpairs' : List.Pairwise (fun a b => a.1 < b.1) t' := List.pairwise_map.mp h'
  have hne {a b : String × α} (hab : a.1 < b.1) : a ≠ b := fun heq => hab.ne (congrArg _ heq)
  have hperm : List.Perm t t' :=
    (List.perm_ext_iff_of_nodup (hpairs.imp hne) (hpairs'.imp hne)).mpr hmem
  exact hperm.eq_of_pairwise (fun a b _ _ hab hba => absurd hba hab.asymm) hpairs hpairs'

/-- Among bindings of different names every one counts. -/
theorem isLast_iff_mem {es : List (String × α)} (h : es.Pairwise fun a b => a.1 ≠ b.1)
    (k : String) (v : α) : IsLast es k v ↔ (k, v) ∈ es := by
  constructor
  · rintro ⟨before, after, rfl, -⟩
    simp
  · intro hmem
    obtain ⟨before, after, rfl⟩ := List.append_of_mem hmem
    obtain ⟨-, hafter, -⟩ := List.pairwise_append.mp h
    exact ⟨before, after, rfl, fun e he => (List.rel_of_pairwise_cons hafter he).symm⟩

theorem mem_ofList_of_nodup {es : List (String × α)} (h : (es.map Prod.fst).Nodup)
    (e : String × α) : e ∈ ofList es ↔ e ∈ es := by
  rw [mem_ofList, isLast_iff_mem (List.pairwise_map.mp h)]

/-- The order of a list makes no difference to its table if no name is bound twice. -/
theorem ofList_perm {es es' : List (String × α)} (hperm : es.Perm es')
    (h : es.Pairwise fun a b => a.1 ≠ b.1) : ofList es = ofList es' := by
  have h' : es'.Pairwise fun a b => a.1 ≠ b.1 := (hperm.pairwise_iff Ne.symm).mp h
  refine (sorted_ofList es).eq_of_mem (sorted_ofList es') fun e => ?_
  rw [mem_ofList, mem_ofList, isLast_iff_mem h, isLast_iff_mem h', hperm.mem_iff]

/-! ## Replacing -/

@[simp] theorem keys_replace (k : String) (v : α) : (t.replace k v).keys = t.keys := by
  induction t with
  | nil => rfl
  | cons e rest ih =>
    obtain ⟨n, w⟩ := e
    unfold replace
    split
    · rfl
    · exact congrArg (n :: ·) ih

theorem get?_replace_self {k : String} (v : α) (h : t.contains k) :
    (t.replace k v).get? k = some v := by
  induction t with
  | nil => cases h
  | cons e rest ih =>
    obtain ⟨n, w⟩ := e
    unfold replace
    split
    case isTrue hk => simp only [get?, if_pos hk]
    case isFalse hk =>
      simp only [contains, get?, if_neg hk] at h ⊢
      exact ih h

theorem get?_replace_of_ne {j k : String} (v : α) (h : j ≠ k) :
    (t.replace k v).get? j = t.get? j := by
  induction t with
  | nil => rfl
  | cons e rest ih =>
    obtain ⟨n, w⟩ := e
    unfold replace
    split
    case isTrue hk =>
      subst hk
      simp only [get?, if_neg h]
    case isFalse =>
      simp only [get?]
      rw [ih]

/-- Of the parts that the bindings of a sorted table give only that of one name is taken. -/
theorem flatMap_ite_eq {t : Table α} (h : t.Sorted) (k : String) {f : α → List β}
    {d : α} (hd : f d = []) :
    (t.flatMap fun e => if e.1 = k then f e.2 else []) = f ((t.get? k).getD d) := by
  induction t with
  | nil => exact hd.symm
  | cons e rest ih =>
    obtain ⟨n, v⟩ := e
    obtain ⟨hn, hrest⟩ := List.pairwise_cons.mp h
    rw [List.flatMap_cons]
    by_cases hk : k = n
    · subst hk
      have hlater : (rest.flatMap fun e => if e.1 = k then f e.2 else []) = [] := by
        refine List.flatMap_eq_nil_iff.mpr fun e he => if_neg ?_
        exact (hn e.1 (List.mem_map_of_mem he)).ne'
      simp [get?, hlater]
    · simp [get?, hk, Ne.symm hk, ih hrest]

/-! ## Applying a function -/

@[simp] theorem keys_mapValues (f : α → β) : (t.mapValues f).keys = t.keys := by
  induction t with
  | nil => rfl
  | cons e rest ih => exact congrArg (e.1 :: ·) ih

theorem get?_mapValues (f : α → β) (k : String) :
    (t.mapValues f).get? k = (t.get? k).map f := by
  induction t with
  | nil => rfl
  | cons e rest ih =>
    obtain ⟨n, w⟩ := e
    show (if k = n then some (f w) else get? (mapValues f rest) k) =
      (if k = n then some w else get? rest k).map f
    split
    · rfl
    · exact ih

end ScriptedActions.Table
