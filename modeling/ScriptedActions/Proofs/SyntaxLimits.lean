import ScriptedActions.Proofs.ParseLimits

/-!
# Limits and the syntax of a script

Every script that is read under limits is read without them, as the same program. There is one lemma for
each kind of syntax; all kinds together are proved by induction on the fuel, which both parsers have the
same of.
-/

set_option autoImplicit false

namespace ScriptedActions.Script

namespace Parse

variable {α : Type} {s t : ParseState}

/-! ## Expressions and statements -/

/-- What is read with some fuel is read without limits. Some kinds of syntax start with a word that has
been looked at. -/
structure FreesAll (n : Nat) : Prop where
  expr : ∀ c s, Frees s (expr n c) (expr n c.relaxed)
  operators : ∀ c least l s, Frees s (operators n c least l) (operators n c.relaxed least l)
  unary : ∀ c s, Frees s (unary n c) (unary n c.relaxed)
  primary : ∀ c s, Frees s (primary n c) (primary n c.relaxed)
  templateParts : ∀ c done s, Frees s (templateParts n c done) (templateParts n c.relaxed done)
  arrayItems : ∀ c done s, Frees s (arrayItems n c done) (arrayItems n c.relaxed done)
  mapEntries : ∀ c done s, Frees s (mapEntries n c done) (mapEntries n c.relaxed done)
  links : ∀ c root done s, Frees s (links n c root done) (links n c.relaxed root done)
  indexLink : ∀ c root done w lenient s, ¬ (sees s).IsBad →
    Frees s (indexLink n c root done w lenient) (indexLink n c.relaxed root done w lenient)
  dotLink : ∀ c root done w lenient s, ¬ (sees s).IsBad →
    Frees s (dotLink n c root done w lenient) (dotLink n c.relaxed root done w lenient)
  arguments : ∀ c name s, Frees s (arguments n c name) (arguments n c.relaxed name)
  argumentsWith : ∀ c name done s,
    Frees s (argumentsWith n c name done) (argumentsWith n c.relaxed name done)
  closure : ∀ c s, ¬ (sees s).IsBad → Frees s (closure n c) (closure n c.relaxed)
  block : ∀ c s, Frees s (block n c) (block n c.relaxed)
  blockRest : ∀ c done s, Frees s (blockRest n c done) (blockRest n c.relaxed done)
  controlStmt : ∀ c keyword s, ¬ (sees s).IsBad →
    Frees s (controlStmt n c keyword) (controlStmt n c.relaxed keyword)
  switchCases : ∀ c fallback ranged done s,
    Frees s (switchCases n c fallback ranged done) (switchCases n c.relaxed fallback ranged done)
  caseValues : ∀ c done s, Frees s (caseValues n c done) (caseValues n c.relaxed done)
  declaration : ∀ c constant exported s, ¬ (sees s).IsBad →
    Frees s (declaration n c constant exported) (declaration n c.relaxed constant exported)
  stmt : ∀ c s, Frees s (stmt n c) (stmt n c.relaxed)
  exprStmt : ∀ c s, Frees s (exprStmt n c) (exprStmt n c.relaxed)
  function : ∀ c isPrivate p s, Frees s (function n c isPrivate p) (function n c.relaxed isPrivate p)

namespace FreesAll

theorem zero : FreesAll 0 := by
  constructor <;> intros <;> exact .fail _ _ _

variable {n : Nat} (h : FreesAll n)

include h

theorem expr_succ (c : Context) (s : ParseState) :
    Frees s (Parse.expr (n + 1) c) (Parse.expr (n + 1) c.relaxed) := by
  unfold Parse.expr
  refine .peek (.deeper fun c' => .bind (h.unary c' s) fun l t => .deeper fun c'' => ?_)
  exact h.operators c'' 1 l t

theorem unary_succ (c : Context) (s : ParseState) :
    Frees s (Parse.unary (n + 1) c) (Parse.unary (n + 1) c.relaxed) := by
  unfold Parse.unary
  refine .peek ?_
  dsimp only [Context.relaxed]
  split
  case h_1 => exact .fail _ _ _
  case h_2 hw =>
    exact .next (not_isBad_of_token hw (by nofun)) fun t => .deeper fun c' =>
      .bind (h.unary c' t) fun e _ => .pure _
  case h_3 hw =>
    refine .next (not_isBad_of_token hw (by nofun)) fun t => .deeper fun c' =>
      .bind (h.unary c' t) fun e _ => ?_
    split <;> exact .pure _
  case h_4 hw =>
    exact .next (not_isBad_of_token hw (by nofun)) fun t => .deeper fun c' =>
      .bind (h.unary c' t) fun e _ => .pure _
  case h_5 => exact h.primary _ s

theorem operators_succ (c : Context) (least : Nat) (l : Expr) (s : ParseState) :
    Frees s (Parse.operators (n + 1) c least l) (Parse.operators (n + 1) c.relaxed least l) := by
  unfold Parse.operators
  refine .peek ?_
  dsimp only [Context.relaxed]
  split
  case' h_1 hw => refine .pureBind ?_
  case' h_2 hw => refine .ite (fun _ => .pureBind ?_) fun _ => .failBind
  case h_3 =>
    -- no operator, so no word is taken
    exact .pureBind (.ite (fun _ => .pure l) fun hop => absurd (by simp [precedence]) hop)
  all_goals
    refine .ite (fun _ => .pure l) fun _ => .next (not_isBad_of_token hw (by nofun)) fun t =>
      .bind (h.unary _ t) fun r t => .peek (.ite (fun _ => ?_) fun _ => .pureBind ?_)
    · exact .deeperAt fun c' => .bind (h.operators c' _ r t) fun r t => .deeperAt fun c' =>
        .bind (reads_binary _ l r _ t) fun e t => h.operators c' least e t
    · exact .deeperAt fun c' => .bind (reads_binary _ l r _ t) fun e t => h.operators c' least e t

theorem templateParts_succ (c : Context) (done : List Expr) (s : ParseState) :
    Frees s (Parse.templateParts (n + 1) c done) (Parse.templateParts (n + 1) c.relaxed done) := by
  unfold Parse.templateParts
  refine .bind (h.block c s) fun b t => .take ?_ fun w t _ => ?_
  · rintro w t ⟨f, hf⟩
    rw [hf]
    exact fails_failAt _ _
  · split
    · exact .pure _
    · exact h.templateParts c _ t
    · exact .failAt _ _ _

theorem arrayItems_succ (c : Context) (done : List Expr) (s : ParseState) :
    Frees s (Parse.arrayItems (n + 1) c done) (Parse.arrayItems (n + 1) c.relaxed done) := by
  unfold Parse.arrayItems
  refine .peek (.check (by simp [Context.relaxed, Limits.unlimited]) (fails_fail _ _)
    (.ite (fun hw => ?_) fun _ => .ite (fun _ => .fail _ _ _) fun _ => .deeper fun c' =>
      .bind (h.expr c' s) fun e t => .peek ?_))
  · exact .next (not_isBad_of_isSymbol hw) fun t => .pure _
  · refine .ite (fun hw => ?_) fun _ => .ite (fun _ => h.arrayItems c _ t) fun _ =>
      .ite (fun _ => .fail _ _ _) fun _ => .failAt _ _ _
    exact .next (not_isBad_of_isSymbol hw) fun t => h.arrayItems c _ t

theorem arguments_succ (c : Context) (name : String) (s : ParseState) :
    Frees s (Parse.arguments (n + 1) c name) (Parse.arguments (n + 1) c.relaxed name) := by
  unfold Parse.arguments
  refine .peek (.ite (fun _ => .fail _ _ _) fun _ => .ite (fun hw => ?_) fun _ => ?_)
  · exact .next (not_isBad_of_isSymbol hw) fun t => .pure _
  · split
    · exact .fail _ _ _
    · exact .deeper fun c' => h.argumentsWith { c' with barred := false } name [] s

theorem argumentsWith_succ (c : Context) (name : String) (done : List Expr) (s : ParseState) :
    Frees s (Parse.argumentsWith (n + 1) c name done)
      (Parse.argumentsWith (n + 1) c.relaxed name done) := by
  unfold Parse.argumentsWith
  refine .peek (.ite (fun _ => .pureBind ?_) fun _ => .bind (h.expr c s) fun e t => .pureBind ?_)
  all_goals
    refine .peek (.ite (fun hw => ?_) fun _ => .ite (fun hw => ?_) fun _ =>
      .ite (fun _ => .fail _ _ _) fun _ => .failAt _ _ _)
    · exact .next (not_isBad_of_isSymbol hw) fun t => .pure _
    · exact .next (not_isBad_of_isSymbol hw) fun t => h.argumentsWith c name _ t

theorem primary_succ (c : Context) (s : ParseState) :
    Frees s (Parse.primary (n + 1) c) (Parse.primary (n + 1) c.relaxed) := by
  unfold Parse.primary
  refine .peek ?_
  dsimp only [Context.relaxed]
  -- by the token in front: literals, a template, a name, a reserved word, no operand, a symbol
  split
  case h_1 hw => exact .next (not_isBad_of_token hw (by nofun)) (h.links _ _ _)
  case h_2 hw => exact .next (not_isBad_of_token hw (by nofun)) (h.links _ _ _)
  case h_3 hw => exact .next (not_isBad_of_token hw (by nofun)) (h.links _ _ _)
  case h_4 hw => exact .next (not_isBad_of_token hw (by nofun)) (h.links _ _ _)
  case h_5 hw =>
    exact .deeper fun c' => .next (not_isBad_of_token hw (by nofun)) fun t =>
      .bind (h.templateParts c' _ t) fun parts => h.links c' _ _
  case h_6 hw =>
    refine .next (not_isBad_of_token hw (by nofun)) fun t => .peek ?_
    split
    · refine .ite (fun _ => ?_) fun _ => .bind (reads_note _ t) fun _ => h.links _ _ _
      exact .bind (reads_modify (f := fun u => { u with captures := true }) (fun _ => rfl) t) fun _ =>
        h.links _ _ _
    · exact .bind (reads_note _ t) fun _ => h.links _ _ _
  case h_7 hw =>
    refine .next (not_isBad_of_token hw (by nofun)) fun t => .peek ?_
    refine .ite (fun _ => h.links _ _ _ t) fun _ => .ite (fun _ => ?_) fun _ => .fail _ _ _
    exact .ite (fun _ => h.links _ _ _ t) fun _ => .fail _ _ _
  case h_8 => exact .fail _ _ _
  case h_9 => exact .fail _ _ _
  case h_10 hw =>
    have hgood := not_isBad_of_token hw (by nofun)
    split
    · exact .next hgood (h.links _ _ _)
    · exact .next hgood (h.links _ _ _)
    · exact .next hgood (h.links _ _ _)
    · refine .next hgood fun t => .bind (reads_accept _ t) fun b t => .ite (fun _ => ?_) fun _ => ?_
      · exact h.links _ _ _ t
      · exact .deeper fun c' => .bind (h.expr { c' with barred := false } t) fun e t =>
          .bind (reads_expect _ _ t) fun _ => h.links _ _ _
    · exact .deeper fun c' => .next hgood fun t =>
        .bind (h.arrayItems { c' with barred := false } [] t) fun items => h.links _ _ _
    · exact .deeper fun c' => .next hgood fun t =>
        .bind (h.mapEntries { c' with barred := false } [] t) fun entries => h.links _ _ _
    · exact .deeper fun c' => .bind (h.block c' s) fun body => h.links _ _ _
    all_goals first
      | exact .deeper fun c' => .bind (h.controlStmt c' _ s hgood) fun st => h.links _ _ _
      | exact .bind (h.closure _ s hgood) fun e => h.links _ _ _
      | exact .fail _ _ _

theorem mapEntries_succ (c : Context) (done : List (String × Expr)) (s : ParseState) :
    Frees s (Parse.mapEntries (n + 1) c done) (Parse.mapEntries (n + 1) c.relaxed done) := by
  unfold Parse.mapEntries
  refine .take ?_ fun w t _ => ?_
  · rintro w t ⟨f, hf⟩
    dsimp only
    rw [hf]
    exact fails_fail _ _
  have hother : ∀ purpose, Frees t (mapEntries.other w purpose done)
      (mapEntries.other w purpose done) :=
    fun purpose => .ite (fun _ => .fail _ _ _) fun _ => .fail _ _ _
  dsimp only [Context.relaxed]
  split
  case h_1 => exact .pure _
  case h_2 | h_3 =>
    refine .ite (fun _ => .fail _ _ _) fun _ => .bind (reads_expect _ _ t) fun _ t =>
      .check (by simp [Limits.unlimited]) (fun _ _ hok => nomatch hok) ?_
    refine .deeper fun c' => .bind (h.expr c' t) fun e t => .peek ?_
    split
    case h_1 hw => exact .next (not_isBad_of_token hw (by nofun)) fun t => h.mapEntries c _ t
    case h_2 => exact h.mapEntries c _ t
    case h_3 => exact .fail _ _ _
    case h_4 => exact .failAt _ _ _
  case h_4 => exact .fail _ _ _
  case h_5 => exact .ite (fun _ => .fail _ _ _) fun _ => hother _
  case h_6 => exact .fail _ _ _
  case h_7 => exact .fail _ _ _
  case h_8 => exact hother _

theorem links_succ (c : Context) (root : Expr) (done : List Link) (s : ParseState) :
    Frees s (Parse.links (n + 1) c root done) (Parse.links (n + 1) c.relaxed root done) := by
  unfold Parse.links
  refine .peek ?_
  dsimp only [Context.relaxed]
  split
  case h_1 hw => exact h.indexLink c root done _ _ s (not_isBad_of_token hw (by nofun))
  case h_2 hw => exact h.indexLink c root done _ _ s (not_isBad_of_token hw (by nofun))
  case h_3 hw => exact h.dotLink c root done _ _ s (not_isBad_of_token hw (by nofun))
  case h_4 hw => exact h.dotLink c root done _ _ s (not_isBad_of_token hw (by nofun))
  case h_5 hw =>
    have hgood := not_isBad_of_token hw (by nofun)
    -- only a name, with or without the path of a module, is called or goes on with a path
    split
    · refine .ite (fun _ => .next hgood fun t => .ite (fun _ => ?_) fun _ => ?_) fun _ =>
        .ite (fun _ => .next hgood fun t => .peek (.ite (fun hparen => ?_) fun _ => ?_)) fun _ =>
        .ite (fun _ => .next hgood fun t => ?_) fun _ => .pure _
      · exact .pureBind (h.links c _ _ t)
      · exact .bind (h.arguments { c with place := _ } _ t) fun args => h.links c _ _
      · exact .next (not_isBad_of_isSymbol hparen) fun t => h.links c _ _ t
      · exact .bind (reads_expect _ _ t) fun _ t =>
          .bind (h.arguments { c with place := _ } _ t) fun args => h.links c _ _
      · exact .bind (reads_variableName t) fun n => h.links c _ _
    · refine .ite (fun _ => .next hgood fun t => .ite (fun _ => ?_) fun _ => ?_) fun _ =>
        .ite (fun _ => .next hgood fun t => .bind (reads_expect _ _ t) fun _ _ => .fail _ _ _) fun _ =>
        .ite (fun _ => .next hgood fun t => ?_) fun _ => .pure _
      · exact .pureBind (h.links c _ _ t)
      · exact .bind (h.arguments { c with place := _ } _ t) fun args => h.links c _ _
      · exact .bind (reads_variableName t) fun n => h.links c _ _
    · exact .pure _
  case h_6 => exact .pure _

theorem indexLink_succ (c : Context) (root : Expr) (done : List Link) (w : Word) (lenient : Bool)
    (s : ParseState) (hs : ¬ (sees s).IsBad) :
    Frees s (Parse.indexLink (n + 1) c root done w lenient)
      (Parse.indexLink (n + 1) c.relaxed root done w lenient) := by
  unfold Parse.indexLink
  refine .next hs fun t => .deeperAt fun c' => .deeper fun c'' =>
    .bind (h.expr { c'' with barred := false } t) fun e t => .ite (fun _ => ?_) fun _ => ?_
  · exact .bind (reads_checkIndex _ _ t) fun _ t => .bind (reads_expect _ _ t) fun _ =>
      h.links c root _
  · exact .bind (reads_expect _ _ t) fun _ => h.links c root _

theorem dotLink_succ (c : Context) (root : Expr) (done : List Link) (w : Word) (lenient : Bool)
    (s : ParseState) (hs : ¬ (sees s).IsBad) :
    Frees s (Parse.dotLink (n + 1) c root done w lenient)
      (Parse.dotLink (n + 1) c.relaxed root done w lenient) := by
  unfold Parse.dotLink
  refine .next hs fun t => .peek ?_
  dsimp only
  split
  case' h_1 hname => refine .pureBind ?_
  case' h_2 hname => refine .ite (fun _ => .pureBind ?_) fun _ => .failBind
  case h_3 => exact .failBind
  all_goals
    refine .next (not_isBad_of_token hname (by nofun)) fun t => .deeper fun c' => .peek ?_
    split
    case h_1 hw =>
      exact .next (not_isBad_of_token hw (by nofun)) fun t =>
        .bind (h.arguments { c' with place := _ } _ t) fun args => h.links c' root _
    case h_2 hw => exact .next (not_isBad_of_token hw (by nofun)) fun t => h.links c' root _ t
    case h_3 hw =>
      exact .next (not_isBad_of_token hw (by nofun)) fun t => .bind (reads_expect _ _ t) fun _ t =>
        .bind (h.arguments { c' with place := _ } _ t) fun _ _ => .fail _ _ _
    case h_4 => exact .fail _ _ _
    case h_5 =>
      split
      · exact .fail _ _ _
      · exact h.links c' root _ t

theorem closure_succ (c : Context) (s : ParseState) (hs : ¬ (sees s).IsBad) :
    Frees s (Parse.closure (n + 1) c) (Parse.closure (n + 1) c.relaxed) := by
  unfold Parse.closure
  refine .deeper fun c' => .next hs fun t => .get (.set rfl (.deeper fun c'' =>
    .ite (fun _ => .pureBind ?_) fun _ => .bind (reads_closureParams _ _ _ _) fun params t => ?_))
  all_goals
    refine .bind (h.stmt c'' _) fun body t => .get (.set rfl (.bind ?_ fun _ _ => .pure _))
    exact reads_noteAll _ _

theorem block_succ (c : Context) (s : ParseState) :
    Frees s (Parse.block (n + 1) c) (Parse.block (n + 1) c.relaxed) := by
  unfold Parse.block
  refine .bind (reads_expect _ _ s) fun p t => .deeperAt fun c' =>
    .bind (.inside ?_) fun body _ => .pure _
  exact h.blockRest { c' with global := false, barred := false } []

theorem blockRest_succ (c : Context) (done : List Stmt) (s : ParseState) :
    Frees s (Parse.blockRest (n + 1) c done) (Parse.blockRest (n + 1) c.relaxed done) := by
  unfold Parse.blockRest
  refine .peek (.ite (fun hw => ?_) fun _ => .ite (fun _ => .fail _ _ _) fun _ =>
    .bind (h.stmt c s) fun st t => .ite (fun _ => h.blockRest c done t) fun _ => .peek ?_)
  · exact .next (not_isBad_of_isSymbol hw) fun t => .pure _
  · refine .ite (fun hw => .next (not_isBad_of_isSymbol hw) fun t => .pure _) fun _ =>
      .ite (fun hw => .next (not_isBad_of_isSymbol hw) (h.blockRest c _)) fun _ =>
      .ite (fun _ => h.blockRest c _ t) fun _ => .failAt _ _ _

/-- The condition of a statement. -/
theorem reads_condition {c : Context} {α : Type} {f g : Expr → Parse α} (s : ParseState)
    (hf : ∀ e t, Frees t (f e) (g e)) :
    Frees s
      (do
        needExpr "a boolean"
        let test ← needBool (← Parse.expr n c)
        noAssignment
        f test)
      (do
        needExpr "a boolean"
        let test ← needBool (← Parse.expr n c.relaxed)
        noAssignment
        g test) :=
  .bind (reads_needExpr _ s) fun _ t => .bind (h.expr c t) fun e t => .bind (reads_needBool e t)
    fun test t => .bind (reads_noAssignment t) fun _ t => hf test t

theorem controlStmt_succ (c : Context) (keyword : String) (s : ParseState)
    (hs : ¬ (sees s).IsBad) :
    Frees s (Parse.controlStmt (n + 1) c keyword) (Parse.controlStmt (n + 1) c.relaxed keyword) := by
  unfold Parse.controlStmt
  refine .next hs fun t => .deeperAt fun c' => ?_
  -- `if`, `while`, `loop`, `do`, `for` and `switch`
  split
  · refine h.reads_condition t fun test t => .bind (h.block c' t) fun yes t =>
      .bind (reads_accept _ t) fun b t =>
        .ite (fun _ => .peek (.ite (fun hif => ?_) fun _ => ?_)) fun _ => ?_
    · exact .bind (h.controlStmt c' "if" t (not_isBad_of_isSymbol hif)) fun no _ => .pure _
    · exact .bind (.map _ (h.block c' t)) fun no _ => .pure _
    · exact .pure _
  · exact h.reads_condition t fun test t => .bind (h.block { c' with breakable := true } t)
      fun body _ => .pure _
  · exact .bind (h.block { c' with breakable := true } t) fun body _ => .pure _
  · refine .bind (h.block { c' with breakable := true } t) fun body t => .take ?_ fun k t _ => ?_
    · -- a bad word is no `while` and no `until`
      intro k t hk
      dsimp only
      rw [if_neg fun hx => not_isBad_of_isSymbol hx hk, if_neg fun hx => not_isBad_of_isSymbol hx hk]
      exact fun _ _ hok => nomatch hok
    · refine .ite (fun _ => .pureBind ?_) fun _ => .ite (fun _ => .pureBind ?_) fun _ => .failBind
      all_goals exact h.reads_condition t fun test _ => .pure _
  · refine .inside fun t => .bind (reads_accept _ t) fun paren t => .ite (fun _ => ?_) fun _ => ?_
    · -- with a variable that counts
      refine .bind (reads_variableName t) fun name t => .peek (.ite (fun hw => ?_) fun _ => .failBind)
      refine .next (not_isBad_of_isSymbol hw) fun t => .bind (reads_variableName t) fun counter t =>
        .ite (fun _ => .failBind) fun _ => .peek (.ite (fun hw => ?_) fun _ => .failBind)
      refine .next (not_isBad_of_isSymbol hw) fun t => .pureBind (.bind (reads_expect _ _ t) fun _ t =>
        .bind (reads_needExpr _ t) fun _ t => .bind (h.expr c' t) fun e t =>
        .bind (reads_needIterable e t) fun items t => .bind (reads_declare _ _ t) fun _ t =>
        .bind (reads_declare _ _ t) fun _ t => .bind (h.block { c' with breakable := true } t)
          fun body _ => .pure _)
    · exact .bind (reads_variableName t) fun name t => .pureBind (.bind (reads_expect _ _ t) fun _ t =>
        .bind (reads_needExpr _ t) fun _ t => .bind (h.expr c' t) fun e t =>
        .bind (reads_needIterable e t) fun items t => .bind (reads_declare _ _ t) fun _ t =>
        .bind (h.block { c' with breakable := true } t) fun body _ => .pure _)
  · exact .bind (h.expr c' t) fun e t => .bind (reads_expect _ _ t) fun _ t =>
      .bind (h.switchCases c' _ _ _ t) fun cases _ => .pure _

theorem caseValues_succ (c : Context) (done : List Expr) (s : ParseState) :
    Frees s (Parse.caseValues (n + 1) c done) (Parse.caseValues (n + 1) c.relaxed done) := by
  unfold Parse.caseValues
  refine .bind (fun e t hok => ?_) fun e t => .bind (reads_accept _ t) fun b t =>
    .ite (fun _ => h.caseValues c _ t) fun _ => .pure _
  -- an expression that cannot be read has a fault of its own here, so only the other case is left
  split at hok
  case h_2 => cases hok
  case h_1 hex =>
    cases hok
    obtain ⟨hrelaxed, htook⟩ := h.expr { c with barred := true } s e t hex
    have hfree : Parse.expr n { c.relaxed with barred := true } s = .ok e t := hrelaxed
    simp only [hfree]
    exact ⟨trivial, htook⟩

theorem declaration_succ (c : Context) (constant exported : Bool) (s : ParseState)
    (hs : ¬ (sees s).IsBad) :
    Frees s (Parse.declaration (n + 1) c constant exported)
      (Parse.declaration (n + 1) c.relaxed constant exported) := by
  unfold Parse.declaration
  refine .next hs fun t => .bind (reads_variableName t) fun name t => .bind (reads_accept _ t)
    fun b t => .ite (fun _ => .deeper fun c' => .bind (h.expr c' t) fun e t => ?_) fun _ => .pureBind ?_
  all_goals exact .bind (reads_declare _ _ _) fun _ _ => .pure _

theorem exprStmt_succ (c : Context) (s : ParseState) :
    Frees s (Parse.exprStmt (n + 1) c) (Parse.exprStmt (n + 1) c.relaxed) := by
  unfold Parse.exprStmt
  refine .bind (h.expr c s) fun e t => .peek ?_
  split
  case h_1 hw =>
    have hgood := not_isBad_of_token hw (by nofun)
    refine .ite (fun _ => .next hgood fun t => ?_) fun _ => ?_
    · exact .bind (h.expr { c with place := _ } t) fun e t => reads_assignment _ _ _ _ t
    · split
      · exact .next hgood fun t => .bind (h.expr { c with place := _ } t) fun e t =>
          reads_assignment _ _ _ _ t
      · exact .pure _
  case h_2 => exact .pure _

theorem switchCases_succ (c : Context) (fallback : Place) (ranged : Bool) (done : List Case)
    (s : ParseState) : Frees s (Parse.switchCases (n + 1) c fallback ranged done)
      (Parse.switchCases (n + 1) c.relaxed fallback ranged done) := by
  unfold Parse.switchCases
  refine .peek (.ite (fun hw => .next (not_isBad_of_isSymbol hw) fun t => .pure _) fun _ =>
    .ite (fun _ => .fail _ _ _) fun _ => .ite (fun _ => .failBind) fun _ =>
    .ite (fun hdefault => ?_) fun _ => ?_)
  -- the default case has no values; what follows the values is the same for all cases
  case' refine_1 =>
    have hgood : ¬ (sees s).IsBad := not_isBad_of_isSymbol (Bool.and_eq_true _ _ ▸ hdefault).1
    refine .next hgood fun t => .peek (.ite (fun _ => .failBind) fun _ => .pureBind ?_)
  case' refine_2 =>
    refine .bind (h.caseValues c [] s) fun values t => .bind (reads_accept _ t) fun b t =>
      .ite (fun _ => h.reads_condition (c := { c with barred := false }) t fun test t =>
        .pureBind (.pureBind ?_)) fun _ => .pureBind (.pureBind ?_)
  all_goals
    refine .bind (reads_expect _ _ _) fun _ t =>
      .bind (h.stmt { c with global := false, barred := false } t) fun st t =>
      .bind (reads_settleValues _ _ t) fun values t => .peek (.ite (fun hw => ?_) fun _ => ?_)
    · exact .next (not_isBad_of_isSymbol hw) fun t => h.switchCases c _ _ _ t
    · refine .ite (fun _ => h.switchCases c _ _ _ t) fun _ => .ite (fun _ => .fail _ _ _) fun _ => ?_
      split
      · exact .fail _ _ _
      · exact .ite (fun _ => h.switchCases c _ _ _ t) fun _ => .fail _ _ _

theorem stmt_succ (c : Context) (s : ParseState) :
    Frees s (Parse.stmt (n + 1) c) (Parse.stmt (n + 1) c.relaxed) := by
  unfold Parse.stmt
  refine .peek ?_
  dsimp only [Context.relaxed]
  split
  case h_1 => exact .pure _
  case h_3 => exact .deeper fun c' => h.exprStmt c' s
  case h_2 hw =>
    have hgood := not_isBad_of_token hw (by nofun)
    -- by the symbol in front, in the order of the keywords of `stmt`
    split
    · exact .next hgood fun t => .pure _
    · exact .deeper fun c' => .bind (h.block c' s) fun body _ => .pure _
    case h_3 | h_4 =>
      refine .ite (fun _ => .ite (fun _ => .fail _ _ _) fun _ => .fail _ _ _) fun _ =>
        .bind (reads_accept _ s) fun isPrivate t => .take ?_ fun k t _ => ?_
      · -- a bad word is no `fn`
        intro k t hk
        rw [if_pos (by simpa using fun hx => not_isBad_of_isSymbol hx hk)]
        exact fails_fail _ _
      · exact .ite (fun _ => .fail _ _ _) fun _ => h.function _ _ _ t
    case h_5 | h_6 | h_7 | h_8 | h_9 | h_10 => exact .deeper fun c' => h.controlStmt c' _ s hgood
    · exact .ite (fun _ => .next hgood fun t => .pure _) fun _ => .fail _ _ _
    · refine .ite (fun _ => .fail _ _ _) fun _ => .next hgood fun t =>
        .peek (.ite (fun _ => .pure _) fun _ => ?_)
      exact .deeper fun c' => .bind (h.expr c' t) fun e _ => .pure _
    case h_13 | h_14 =>
      refine .next hgood fun t =>
        .peek (.ite (fun _ => .pureBind (.pure _)) fun _ => .deeper fun c' => ?_)
      exact .bind (.map _ (h.expr c' t)) fun e _ => .pure _
    · -- `try`, with or without a variable for what is caught
      refine .deeper fun c' => .next hgood fun t => .deeperAt fun c'' =>
        .bind (h.block c'' t) fun body t => .peek (.ite (fun _ => .failBind) fun hw => ?_)
      refine .next (not_isBad_of_isSymbol (by simpa using hw)) fun t => .inside fun t =>
        .bind (reads_accept _ t) fun b t => .ite (fun _ => .bind (reads_variableName t) fun name t =>
          .peek (.ite (fun _ => .failBind) fun hw => ?_)) fun _ => .pureBind ?_
      · refine .next (not_isBad_of_isSymbol (by simpa using hw)) fun t =>
          .bind (reads_declare _ _ t) fun _ t => .pureBind ?_
        exact .bind (h.block c'' t) fun handler _ => .pure _
      · exact .bind (h.block c'' t) fun handler _ => .pure _
    · exact .deeper fun c' => h.declaration c' _ _ s hgood
    · exact .deeper fun c' => h.declaration c' _ _ s hgood
    · refine .deeper fun c' => .next hgood fun t => .deeperAt fun c'' => .bind (h.expr c'' t)
        fun path t => .bind (reads_accept _ t) fun b t => .ite (fun _ => ?_) fun _ => .pureBind (.pure _)
      exact .bind (.map _ (reads_variableName t)) fun name _ => .pure _
    · -- `export`, of a declaration or of a variable
      refine .ite (fun _ => .fail _ _ _) fun _ => .deeper fun c' => .next hgood fun t => .peek
        (.ite (fun hw => ?_) fun _ => .ite (fun hw => ?_) fun _ => ?_)
      · exact .deeper fun c'' => h.declaration c'' _ _ t (not_isBad_of_isSymbol hw)
      · exact .deeper fun c'' => h.declaration c'' _ _ t (not_isBad_of_isSymbol hw)
      · refine .bind (reads_variableName t) fun name t => .bind (reads_accept _ t) fun b t =>
          .ite (fun _ => ?_) fun _ => .pureBind (.pure _)
        exact .bind (.map _ (reads_variableName t)) fun newName _ => .pure _
    · exact .deeper fun c' => h.exprStmt c' s

theorem function_succ (c : Context) (isPrivate : Bool) (p : Place) (s : ParseState) :
    Frees s (Parse.function (n + 1) c isPrivate p) (Parse.function (n + 1) c.relaxed isPrivate p) := by
  unfold Parse.function
  refine .take ?_ fun w t _ => ?_
  · rintro w t ⟨f, hf⟩
    rw [hf]
    exact fun _ _ hok => nomatch hok
  -- the name, which some reserved words may be, and then the parameters
  split
  case' h_1 => refine .pureBind ?_
  case' h_2 => refine .ite (fun _ => .pureBind ?_) fun _ => .failBind
  case h_3 => exact .failBind
  case h_4 => exact .failBind
  all_goals
    refine .get (.set rfl (.peek ?_))
    split
    case' h_1 hw => refine .next (not_isBad_of_token hw (by nofun)) fun t => .pureBind ?_
    case' h_2 hw =>
      refine .next (not_isBad_of_token hw (by nofun)) fun t => .bind (reads_accept _ t) fun b t =>
        .ite (fun _ => .pureBind ?_) fun _ => .bind (reads_functionParams _ _ _ t) fun params t => ?_
    case h_3 => exact .failBind
    all_goals
      refine .peek (.ite (fun _ => .failBind) fun _ => .deeper (c := _) fun c' => ?_)
      refine .bind (h.block c' _) fun body t => .get (.set rfl (.ite (fun _ => .failBind) fun _ => ?_))
      exact .bind (reads_modify (fun _ => rfl) _) fun _ _ => .pure _

theorem succ : FreesAll (n + 1) where
  expr := h.expr_succ
  operators := h.operators_succ
  unary := h.unary_succ
  primary := h.primary_succ
  templateParts := h.templateParts_succ
  arrayItems := h.arrayItems_succ
  mapEntries := h.mapEntries_succ
  links := h.links_succ
  indexLink := h.indexLink_succ
  dotLink := h.dotLink_succ
  arguments := h.arguments_succ
  argumentsWith := h.argumentsWith_succ
  closure := h.closure_succ
  block := h.block_succ
  blockRest := h.blockRest_succ
  controlStmt := h.controlStmt_succ
  switchCases := h.switchCases_succ
  caseValues := h.caseValues_succ
  declaration := h.declaration_succ
  stmt := h.stmt_succ
  exprStmt := h.exprStmt_succ
  function := h.function_succ

end FreesAll

theorem freesAll (n : Nat) : FreesAll n := by
  induction n with
  | zero => exact .zero
  | succ n ih => exact ih.succ

theorem frees_global (fuel : Nat) (c : Context) (n : Nat) (done : List Stmt) (s : ParseState) :
    Frees s (global fuel c n done) (global fuel c.relaxed n done) := by
  induction n generalizing done s with
  | zero => exact .fail _ _ _
  | succ n ih =>
    unfold global
    refine .peek (.ite (fun _ => .pure _) fun _ => .bind ((freesAll fuel).stmt c s) fun st t =>
      .ite (fun _ => ih done t) fun _ => .peek (.ite (fun _ => .pure _) fun _ =>
      .ite (fun hw => .ite (fun _ => ?_) fun _ => ih _ t) fun _ =>
      .ite (fun _ => ih _ t) fun _ => .failAt _ _ _))
    exact .next (not_isBad_of_isSymbol hw) (ih _)

/-! ## Whole scripts -/

/-- A script is read up to its end. -/
theorem isEnd_of_global {fuel : Nat} {c : Context} {n : Nat} {done body : List Stmt}
    (h : global fuel c n done s = .ok body t) : isEnd (sees t) := by
  induction n generalizing done s with
  | zero => cases h
  | succ n ih =>
    unfold global at h
    obtain ⟨w, u, hw, h⟩ := bind_eq_ok h
    cases hw
    split at h
    case isTrue hend =>
      cases h
      exact hend
    obtain ⟨st, u, -, h⟩ := bind_eq_ok h
    split at h
    · exact ih h
    obtain ⟨w, u, hw, h⟩ := bind_eq_ok h
    cases hw
    split at h
    case isTrue hend =>
      cases h
      exact hend
    split at h
    · split at h
      · obtain ⟨_, _, -, h⟩ := bind_eq_ok h
        exact ih h
      · exact ih h
    · split at h
      · exact ih h
      · exact absurd h (fails_failAt _ _ _ _)

theorem fails_leftover (w : Word) :
    Fails s (match w.token with
      | .text x => Parse.fail (.unexpected ("\"" ++ x ++ "\"")) w.place
      | t => Parse.failAt w (.unexpected t.spelling) : Parse α) := by
  split
  · exact fails_fail _ _
  · exact fails_failAt _ _

/-- The words up to the end of a script are all its words. -/
theorem Took.all {ws : List Word} (h : Took ws t.words) (hend : isEnd (sees t)) (hws : Scan.IsWhole ws) :
    ∀ w ∈ ws, ¬ w.IsBad := by
  obtain ⟨taken, rfl, hgood⟩ := h
  obtain ⟨body, last, hbody, hlast, hmid⟩ := hws
  intro w hw
  -- words that were taken are good; of those that are left the first one is an end
  rcases List.mem_append.mp hw with hw | hw
  · exact hgood w hw
  cases hrest : t.words with
  | nil =>
    rw [hrest] at hw
    cases hw
  | cons v rest =>
    rw [sees, hrest, List.headD_cons] at hend
    have hv : v.token = .eof := by
      unfold isEnd at hend
      split at hend
      · assumption
      · cases hend
    rw [hrest] at hw hbody
    -- the first word that is left is an end, so it is the last word
    have hlone : rest = [] := by
      rcases List.append_eq_append_iff.mp hbody with ⟨more, rfl, hmore⟩ | ⟨more, rfl, hmore⟩
      · cases more with
        | nil => exact (List.cons.inj hmore).2
        | cons u more =>
          obtain ⟨rfl, -⟩ := List.cons.inj hmore
          exact absurd hv (hmid v (List.mem_append_right _ List.mem_cons_self))
      · cases more with
        | nil => exact (List.cons.inj hmore).2.symm
        | cons u more => simp at hmore
    rw [hlone, List.mem_singleton] at hw
    rw [hw]
    exact not_isBad_of_isEnd hend

end Parse

/-- **A script that is read under limits** is read without them, as the same program. -/
theorem Program.parse_unlimited {limits : Limits} {text : String} {program : Program}
    (h : Program.parse limits text = .ok program) :
    Program.parse .unlimited text = .ok program := by
  unfold Program.parse at h
  dsimp only at h
  split at h
  case h_2 => cases h
  case h_1 body s hbody =>
    obtain ⟨hfree, htook⟩ := Parse.frees_global _ _ _ _ _ body s hbody
    have hgood := htook.all (Parse.isEnd_of_global hbody) (Token.isWhole_scan _ _)
    have hscan : Token.scan limits.textSize text = Token.scan 0 text :=
      (Token.scan_limit _ _).resolve_right fun ⟨w, hw, hbad⟩ =>
        hgood w (Array.mem_toList_iff.mpr hw) hbad
    unfold Program.parse
    rw [hscan] at hfree
    dsimp only
    erw [hfree]
    exact h

theorem Word.isBad_ofJson {w : Word} (h : w.IsBad) : w.ofJson.IsBad := by
  obtain ⟨f, hf⟩ := h
  exact ⟨f, by simp [Word.ofJson, hf]⟩

theorem Word.ofJson_eq_eof (w : Word) : w.ofJson.token = .eof ↔ w.token = .eof := by
  unfold Word.ofJson
  dsimp only
  split <;> simp_all

theorem Scan.IsWhole.ofJson {ws : List Word} (h : IsWhole ws) : IsWhole (ws.map Word.ofJson) := by
  obtain ⟨body, last, rfl, hlast, hmid⟩ := h
  refine ⟨body.map Word.ofJson, last.ofJson, by simp, last.ofJson_eq_eof.mpr hlast, ?_⟩
  rintro w hw heof
  obtain ⟨v, hv, rfl⟩ := List.mem_map.mp hw
  exact hmid v hv (v.ofJson_eq_eof.mp heof)

/-- JSON text that is read under limits is read without them. -/
theorem Program.parseJson_unlimited {limits : Limits} {text : String} {e : Expr}
    (h : Program.parseJson limits text = .ok e) : Program.parseJson .unlimited text = .ok e := by
  unfold Program.parseJson at h
  dsimp only at h
  split at h
  case h_2 => cases h
  case h_1 e s hok =>
    obtain ⟨e, u, he, hrest⟩ := Parse.bind_eq_ok hok
    obtain ⟨hfree, htook⟩ := (Parse.freesAll _).expr _ _ e u he
    have hend : Parse.isEnd (Parse.sees u) := by
      obtain ⟨w, u, hw, hrest⟩ := Parse.bind_eq_ok hrest
      cases hw
      refine Decidable.byContradiction fun hmore => ?_
      erw [if_neg hmore] at hrest
      exact Parse.fails_leftover _ _ _ hrest
    have hgood := htook.all hend (by simpa using (Token.isWhole_scan _ _).ofJson)
    have hscan : Token.scan limits.textSize text = Token.scan 0 text :=
      (Token.scan_limit _ _).resolve_right fun ⟨w, hw, hbad⟩ =>
        hgood w.ofJson (by simpa using ⟨w, hw, rfl⟩) (Word.isBad_ofJson hbad)
    rw [hscan] at hfree hok
    unfold Program.parseJson
    dsimp only
    erw [Parse.bind_of_ok hfree, hrest]
    exact h

end ScriptedActions.Script
