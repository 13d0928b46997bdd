import ScriptedActions.Proofs.ScanLimits
import ScriptedActions.Script.Parser

/-!
# A parser under limits and one without

What is read under limits is read without them: a limit only ever makes a parser refuse. A limit for
texts works through the words of a script, of which one is bad then; so the statement has a second half,
that nothing is read over a bad word.

Both halves are one relation, `Frees`, between a parser under limits and one without. Here are a law for
each step that a parser makes, and the parsers that do not look at a limit.
-/

set_option autoImplicit false

namespace ScriptedActions.Script

/-- The context without limits. -/
def Context.relaxed (c : Context) : Context := { c with limits := .unlimited, maxDepth := 0 }

namespace Parse

/-- Some words were taken, and none of them is bad. -/
def Took (before after : List Word) : Prop :=
  ∃ taken, before = taken ++ after ∧ ∀ w ∈ taken, ¬ w.IsBad

theorem Took.refl (ws : List Word) : Took ws ws := ⟨[], rfl, nofun⟩

theorem Took.trans {a b c : List Word} (h : Took a b) (h' : Took b c) : Took a c := by
  obtain ⟨taken, rfl, hgood⟩ := h
  obtain ⟨more, rfl, hmore⟩ := h'
  refine ⟨taken ++ more, (List.append_assoc ..).symm, fun w hw => ?_⟩
  rcases List.mem_append.mp hw with hw | hw
  · exact hgood w hw
  · exact hmore w hw

/-- The word that a parser sees. -/
def sees (s : ParseState) : Word := s.words.headD ⟨.eof, .none⟩

variable {α β : Type} {s t : ParseState}

/-- What `x` reads `y` reads, and it is not read over a bad word. -/
def Frees (s : ParseState) (x y : Parse α) : Prop :=
  ∀ a t, x s = .ok a t → y s = .ok a t ∧ Took s.words t.words

/-- Nothing is read. -/
def Fails (s : ParseState) (x : Parse α) : Prop := ∀ a t, x s ≠ .ok a t

/-- A parser that limits do not matter to. -/
def Reads (x : Parse α) : Prop := ∀ s, Frees s x x

/-! ## Steps -/

theorem Frees.pure (a : α) : Frees s (pure a) (pure a) := by
  rintro b t h
  cases h
  exact ⟨rfl, .refl _⟩

theorem fails_fail (f : CompileFault) (p : Place) : Fails s (fail f p : Parse α) := nofun

theorem Fails.frees {x : Parse α} (h : Fails s x) (y : Parse α) : Frees s x y :=
  fun a t hok => absurd hok (h a t)

theorem Frees.fail (f : CompileFault) (p : Place) (y : Parse α) : Frees s (fail f p) y := nofun

theorem Frees.failBind {f : CompileFault} {p : Place} {k : β → Parse α} {y : Parse α} :
    Frees s (Parse.fail f p >>= k) y := nofun

theorem bind_eq_ok {x : Parse α} {f : α → Parse β} {b : β} (h : (x >>= f) s = .ok b t) :
    ∃ a u, x s = .ok a u ∧ f a u = .ok b t := by
  change EStateM.bind x f s = _ at h
  unfold EStateM.bind at h
  cases hx : x s with
  | ok a u =>
    rw [hx] at h
    exact ⟨a, u, rfl, h⟩
  | error e u =>
    rw [hx] at h
    cases h

theorem bind_of_ok {x : Parse α} {f : α → Parse β} {a : α} (h : x s = .ok a t) :
    (x >>= f) s = f a t := by
  change EStateM.bind x f s = _
  unfold EStateM.bind
  rw [h]

theorem Frees.bind {x y : Parse α} {f g : α → Parse β} (hx : Frees s x y)
    (hf : ∀ a t, Frees t (f a) (g a)) : Frees s (x >>= f) (y >>= g) := by
  intro b t h
  obtain ⟨a, u, ha, hb⟩ := bind_eq_ok h
  obtain ⟨hy, htook⟩ := hx a u ha
  obtain ⟨hg, hmore⟩ := hf a u b t hb
  exact ⟨(bind_of_ok hy).trans hg, htook.trans hmore⟩

theorem Frees.pureBind {a : α} {f g : α → Parse β} (h : Frees s (f a) (g a)) :
    Frees s (Pure.pure a >>= f) (Pure.pure a >>= g) := h

theorem Frees.ite {c : Prop} [Decidable c] {x x' y y' : Parse α} (hx : c → Frees s x x')
    (hy : ¬ c → Frees s y y') : Frees s (if c then x else y) (if c then x' else y') := by
  split
  case isTrue h => exact hx h
  case isFalse h => exact hy h

theorem Frees.map {x y : Parse α} (f : α → β) (hx : Frees s x y) : Frees s (f <$> x) (f <$> y) :=
  hx.bind fun a _ => .pure (f a)

theorem Frees.peek {f g : Word → Parse α} (h : Frees s (f (sees s)) (g (sees s))) :
    Frees s (peek >>= f) (Parse.peek >>= g) := h

/-- A word is taken of which it is known that it is not bad. -/
theorem Frees.next {f g : Word → Parse α} (hs : ¬ (sees s).IsBad)
    (h : ∀ t, Frees t (f (sees s)) (g (sees s))) : Frees s (next >>= f) (Parse.next >>= g) := by
  intro a t hok
  obtain ⟨w, u, hw, ha⟩ := bind_eq_ok hok
  have hstep : w = sees s ∧ Took s.words u.words := by
    unfold Parse.next at hw
    unfold sees at hs ⊢
    split at hw
    case h_1 hnil =>
      cases hw
      rw [hnil]
      exact ⟨rfl, .refl _⟩
    case h_2 hone =>
      cases hw
      rw [hone]
      exact ⟨rfl, .refl _⟩
    case h_3 rest _ hcons =>
      cases hw
      rw [hcons] at hs ⊢
      refine ⟨rfl, [_], rfl, fun v hv => ?_⟩
      rw [List.mem_singleton.mp hv]
      exact hs
  obtain ⟨rfl, htook⟩ := hstep
  obtain ⟨hg, hmore⟩ := h u a t ha
  exact ⟨(bind_of_ok hw).trans hg, htook.trans hmore⟩

/-- A word is taken and looked at; nothing is read if it is bad. -/
theorem Frees.take {f g : Word → Parse α} (hbad : ∀ w t, w.IsBad → Fails t (f w))
    (h : ∀ w t, ¬ w.IsBad → Frees t (f w) (g w)) :
    Frees s (Parse.next >>= f) (Parse.next >>= g) := by
  by_cases hs : (sees s).IsBad
  · intro a t hok
    obtain ⟨w, u, hw, ha⟩ := bind_eq_ok hok
    have hsees : w = sees s := by
      unfold Parse.next at hw
      unfold sees
      split at hw <;> cases hw
      · rw [‹s.words = []›]
        rfl
      · rw [‹s.words = _›]
        rfl
      · rw [‹s.words = _›]
        rfl
    exact absurd ha (hbad w u (hsees ▸ hs) a t)
  · exact .next hs fun t => h _ t hs

/-- A check that only a limit makes. -/
theorem Frees.check {c d : Prop} [Decidable c] [Decidable d] (hd : ¬ d) {x y z z' : Parse α}
    (hz : Fails s z) (h : Frees s x y) : Frees s (if c then z else x) (if d then z' else y) := by
  rw [if_neg hd]
  split
  · exact hz.frees y
  · exact h

theorem Frees.deeperAt {c : Context} {p : Place} {f g : Context → Parse α}
    (h : ∀ c', Frees s (f c') (g c'.relaxed)) :
    Frees s (deeperAt c p >>= f) (Parse.deeperAt c.relaxed p >>= g) := by
  intro a t hok
  unfold Parse.deeperAt at hok
  split at hok
  · cases hok
  · exact h _ a t hok

theorem Frees.deeper {c : Context} {f g : Context → Parse α}
    (h : ∀ c', Frees s (f c') (g c'.relaxed)) :
    Frees s (deeper c >>= f) (Parse.deeper c.relaxed >>= g) := .deeperAt h

theorem Frees.get {f g : ParseState → Parse α} (h : Frees s (f s) (g s)) :
    Frees s (get >>= f) (MonadState.get >>= g) := h

/-- What else a parser knows changes, but not the words that are left. -/
theorem Frees.set {u : ParseState} {f g : Unit → Parse α} (hu : u.words = s.words)
    (h : Frees u (f ()) (g ())) : Frees s (set u >>= f) (MonadStateOf.set u >>= g) := by
  intro a t hok
  obtain ⟨hg, htook⟩ := h a t hok
  exact ⟨hg, hu ▸ htook⟩

theorem reads_modify {f : ParseState → ParseState} (hf : ∀ s, (f s).words = s.words) :
    Reads (modify f) := by
  intro s a t hok
  cases hok
  exact ⟨rfl, hf s ▸ .refl _⟩

theorem reads_declare (name : String) (constant : Bool) : Reads (declare name constant) :=
  reads_modify fun _ => rfl

theorem reads_note (n : Name) : Reads (note n) := by
  refine reads_modify fun s => ?_
  dsimp only
  split
  · split <;> rfl
  · rfl

theorem reads_noteAll (names : List Name) :
    Reads (forIn names PUnit.unit fun n _ => do note n; pure (.yield PUnit.unit)) := by
  induction names with
  | nil => exact fun s => .pure _
  | cons n names ih =>
    intro s
    rw [List.forIn_cons]
    exact .bind (.bind (reads_note n s) fun _ _ => .pure _) fun r t => by
      cases r with
      | done => exact .pure _
      | yield => exact ih t

theorem Frees.inside {x y : Parse α} (h : ∀ t, Frees t x y) :
    Frees s (inside x) (Parse.inside y) := by
  refine .get (.bind (h s) fun a t => .bind ?_ fun _ _ => .pure a)
  exact reads_modify (f := fun u => { u with declared := s.declared }) (fun _ => rfl) t

/-! ## Words -/

theorem not_isBad_of_token {w : Word} {t : Token} (h : w.token = t) (ht : ∀ f, t ≠ .bad f) :
    ¬ w.IsBad := by
  rintro ⟨f, hf⟩
  exact ht f (h.symm.trans hf)

theorem not_isBad_of_isSymbol {w : Word} {x : String} (h : isSymbol w x) : ¬ w.IsBad := by
  rintro ⟨f, hf⟩
  simp [isSymbol, hf] at h

theorem not_isBad_of_isEnd {w : Word} (h : isEnd w) : ¬ w.IsBad := by
  rintro ⟨f, hf⟩
  simp [isEnd, hf] at h

theorem fails_failAt (w : Word) (f : CompileFault) : Fails s (failAt w f : Parse α) := by
  unfold failAt
  split
  · exact fails_fail _ _
  · exact fails_fail _ _

theorem Frees.failAt (w : Word) (f : CompileFault) (y : Parse α) : Frees s (failAt w f) y :=
  (fails_failAt w f).frees y

theorem reads_accept (x : String) : Reads (accept x) := by
  intro s
  refine .peek ?_
  split
  case isTrue hx => exact .next (not_isBad_of_isSymbol hx) fun t => .pure true
  case isFalse => exact .pure false

theorem reads_expect (x purpose : String) : Reads (expect x purpose) := by
  intro s
  refine .take ?_ fun w t _ => ?_
  · intro w t hw
    rw [if_neg fun hx => not_isBad_of_isSymbol hx hw]
    exact fails_failAt _ _
  · split
    · exact .pure _
    · exact .failAt _ _ _

theorem reads_variableName : Reads variableName := by
  intro s
  refine .take ?_ fun w t _ => ?_
  · rintro w t ⟨f, hf⟩
    rw [hf]
    exact fails_failAt _ _
  · split
    · exact .pure _
    · split <;> exact .fail _ _ _
    · exact .failAt _ _ _

theorem reads_needExpr (kind : String) : Reads (needExpr kind) := by
  intro s
  refine .peek ?_
  split
  · exact .fail _ _ _
  · exact .pure ()

theorem reads_noAssignment : Reads noAssignment := by
  intro s
  refine .peek ?_
  split
  · exact .fail _ _ _
  · exact .pure ()

/-! ## Checks -/

theorem reads_needBool (e : Expr) : Reads (needBool e) := by
  intro s
  unfold needBool
  split
  · exact .fail _ _ _
  · exact .pure e

theorem reads_needIterable (e : Expr) : Reads (needIterable e) := by
  intro s
  unfold needIterable
  split
  · exact .fail _ _ _
  · exact .pure e

theorem reads_checkIndex (e index : Expr) : Reads (checkIndex e index) := by
  intro s
  have hreport : ∀ advice k, Reads (checkIndex.report index advice k) := by
    intro advice k s
    unfold checkIndex.report
    split
    · exact .fail _ _ _
    · exact .pure ()
  unfold checkIndex
  split
  · exact hreport _ _ s
  · split
    · exact .fail _ _ _
    · exact hreport _ _ s
  · split
    · exact .fail _ _ _
    · exact hreport _ _ s
  · split
    · exact .fail _ _ _
    · exact hreport _ _ s
  · split
    · exact .fail _ _ _
    · exact hreport _ _ s
  · exact .pure ()

theorem reads_binary (op : String) (l r : Expr) (p : Place) : Reads (binary op l r p) := by
  intro s
  unfold binary
  split
  · exact .bind (reads_needBool r s) fun r t => .bind (reads_needBool l t) fun l _ => .pure _
  · exact .bind (reads_needBool r s) fun r t => .bind (reads_needBool l t) fun l _ => .pure _
  all_goals exact .pure _

theorem reads_assignment (op : Option String) (target value : Expr) (p : Place) :
    Reads (assignment op target value p) := by
  intro s
  unfold assignment
  dsimp only
  split
  · exact .pure _
  · refine .get ?_
    split
    · exact .failBind
    · exact .pure _
  · split
    · exact .failBind
    · exact .pure _
    · exact .pure _
    · exact .failBind
  · split <;> exact .failBind
  · split <;> exact .failBind
  · split <;> exact .failBind
  · split <;> exact .failBind

theorem reads_settleValues (ranged : Bool) (values : List Expr) :
    Reads (switchCases.settleValues ranged values) := by
  induction values generalizing ranged with
  | nil => exact fun s => .pure _
  | cons e rest ih =>
    intro s
    unfold switchCases.settleValues
    dsimp only
    split
    · exact .fail _ _ _
    · have hrest : ∀ (here : List Literal) (ranged : Bool), Frees s
          (do
            let others ← switchCases.settleValues ranged rest
            pure (here ++ others.1, others.2))
          (do
            let others ← switchCases.settleValues ranged rest
            pure (here ++ others.1, others.2)) :=
        fun here ranged => .bind (ih ranged s) fun others _ => .pure _
      split
      · refine .ite (fun _ => ?_) fun _ => .ite (fun _ => ?_) fun _ => ?_
        all_goals exact .pureBind (hrest _ _)
      · exact .ite (fun _ => .failBind) fun _ => .pureBind (hrest _ _)
      · exact .pureBind (hrest _ _)

/-- A parameter, behind which the list ends or goes on. -/
theorem reads_param (close name n : String) (done : List String) (p : Place) (missing : CompileFault)
    {more : Parse (List String)} (hmore : Reads more) :
    Reads (if done.contains n then fail (.duplicateParameter name n) p
      else do
        declare n false
        let sep ← next
        if isSymbol sep close then pure (n :: done).reverse
        else if isSymbol sep "," then more
        else failAt sep missing) := by
  intro s
  refine .ite (fun _ => .fail _ _ _) fun _ => .bind (reads_declare _ _ s) fun _ t =>
    .take ?_ fun sep t _ => ?_
  · intro w t hw
    rw [if_neg fun hx => not_isBad_of_isSymbol hx hw, if_neg fun hx => not_isBad_of_isSymbol hx hw]
    exact fails_failAt _ _
  · exact .ite (fun _ => .pure _) fun _ => .ite (fun _ => hmore t) fun _ => .failAt _ _ _

theorem reads_closureParams (fuel : Nat) (name : String) (done : List String) :
    Reads (closureParams fuel name done) := by
  induction fuel generalizing done with
  | zero => exact fun s => .fail _ _ _
  | succ fuel ih =>
    intro s
    unfold closureParams
    refine .take ?_ fun w t _ => ?_
    · rintro w t ⟨f, hf⟩
      rw [hf]
      exact fails_failAt _ _
    · split
      · exact .pure _
      · exact reads_param "|" name _ done _ _ (ih _) t
      · exact .failAt _ _ _

theorem reads_functionParams (fuel : Nat) (name : String) (done : List String) :
    Reads (functionParams fuel name done) := by
  induction fuel generalizing done with
  | zero => exact fun s => .fail _ _ _
  | succ fuel ih =>
    intro s
    unfold functionParams
    refine .take ?_ fun w t _ => ?_
    · rintro w t ⟨f, hf⟩
      rw [hf]
      exact fails_failAt _ _
    · split
      · exact .pure _
      · exact reads_param ")" name _ done _ _ (ih _) t
      · exact .failAt _ _ _

end Parse

end ScriptedActions.Script
