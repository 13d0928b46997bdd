import ScriptedActions.Script.Lexer

/-!
# Limits of texts and the words of a script

A limit for the length of texts takes words away from a script or leaves them all as they are: the
first text that is too long is a bad word, and the script ends behind it. So the words under a limit
are those without one, or the last of them is bad.
-/

set_option autoImplicit false

namespace ScriptedActions.Script

/-- A word that no script has: the scan found something wrong there. -/
def Word.IsBad (w : Word) : Prop := ∃ f, w.token = .bad f

namespace Scan

/-! ## Texts -/

/-- What a limit makes of a text: the text, or the fault that it is too long. -/
def Cut (x y : Except (WordFault × Place) TextPiece) : Prop := x = y ∨ ∃ e, x = .error e

theorem Cut.refl (x : Except (WordFault × Place) TextPiece) : Cut x x := .inl rfl

theorem Cut.error (e : WordFault × Place) (y : Except (WordFault × Place) TextPiece) :
    Cut (.error e) y := .inr ⟨e, rfl⟩

theorem Cut.ite {c : Prop} [Decidable c] {x x' y y' : Except (WordFault × Place) TextPiece}
    (hx : Cut x x') (hy : Cut y y') : Cut (if c then x else y) (if c then x' else y') := by
  split
  · exact hx
  · exact hy

/-- A check that only a limit makes. -/
theorem Cut.check {c d : Prop} [Decidable c] [Decidable d] (hd : ¬ d) {e : WordFault × Place}
    {x y z : Except (WordFault × Place) TextPiece} (h : Cut x y) :
    Cut (if c then .error e else x) (if d then z else y) := by
  rw [if_neg hd]
  split
  · exact .error e y
  · exact h

variable (limit : Nat)

theorem cut_finish (r : TextRule) (done : String) (block : Bool) (first : Place) (s : Scan) :
    Cut ({ r with limit := limit }.finish done block first s)
      ({ r with limit := 0 }.finish done block first s) :=
  .check (by simp) (.refl _)

theorem cut_text (r : TextRule) (fuel : Nat) (escaped : Bool) (skipTo : Nat) (first : Place)
    (done : String) (s : Scan) :
    Cut (text { r with limit := limit } fuel escaped skipTo first done s)
      (text { r with limit := 0 } fuel escaped skipTo first done s) := by
  induction fuel generalizing escaped skipTo first done s with
  | zero => exact .refl _
  | succ fuel ih =>
    unfold text
    cases s.peek with
    | none => exact .refl _
    | some c =>
      dsimp only
      refine .ite (cut_finish limit r _ _ _ _) (.check (by simp) ?_)
      refine .ite (cut_finish limit r _ _ _ _) (.ite (ih _ _ _ _ _) (.ite (ih _ _ _ _ _)
        (.ite ?_ (.ite (.ite (ih _ _ _ _ _) (.refl _)) (.ite (ih _ _ _ _ _) (ih _ _ _ _ _))))))
      refine .ite (ih _ _ _ _ _) (.ite (ih _ _ _ _ _) (.ite (ih _ _ _ _ _) (.ite (ih _ _ _ _ _)
        (.ite ?_ (.ite (ih _ _ _ _ _) (.ite (.ite (ih _ _ _ _ _) (.refl _)) (.refl _)))))))
      generalize codeEscape _ _ _ _ = escape
      cases escape with
      | ok x => exact ih _ _ _ _ _
      | error e => exact .refl _

theorem cut_readText (quote : Char) (verbatim continues blocks : Bool) (s : Scan) :
    Cut (readText quote verbatim continues blocks limit s)
      (readText quote verbatim continues blocks 0 s) :=
  cut_text limit ⟨quote, verbatim, continues, blocks, limit, s.place⟩ _ _ _ _ _ _

theorem cut_rawText (close : List Char) (start : Place) (rest : List Char) (p : Place)
    (done : String) :
    Cut (rawText close limit start rest p done) (rawText close 0 start rest p done) := by
  induction rest generalizing p done with
  | nil => exact .refl _
  | cons c rest ih =>
    unfold rawText
    exact .ite (cut_finish limit ⟨'"', true, false, false, limit, start⟩ _ _ _ _) (ih _ _)

theorem cut_readRaw (s : Scan) : Cut (readRaw limit s) (readRaw 0 s) := by
  unfold readRaw
  dsimp only
  split
  · exact cut_rawText limit _ _ _ _ _
  · exact .refl _
  · exact .refl _

/-! ## Words -/

/-- What a limit makes of the words of a script: the words, or some among which one is bad. -/
def CutWords (x y : Array Word) : Prop := x = y ∨ ∃ w ∈ x, w.IsBad

theorem CutWords.refl (x : Array Word) : CutWords x x := .inl rfl

theorem CutWords.bad (done : Array Word) (f : WordFault) (p : Place) (w : Word) (y : Array Word) :
    CutWords ((done.push ⟨.bad f, p⟩).push w) y :=
  .inr ⟨⟨.bad f, p⟩, by simp, f, rfl⟩

theorem CutWords.ite {c : Prop} [Decidable c] {x x' y y' : Array Word} (hx : CutWords x x')
    (hy : CutWords y y') : CutWords (if c then x else y) (if c then x' else y') := by
  split
  · exact hx
  · exact hy

section

variable (limit fuel : Nat) (done : Array Word)

/-- The words of a script from a token on. -/
def wordsFrom (t : Token) (p : Place) (blocks : List Nat) (s : Scan) : Array Word :=
  match t with
  | .bad _ => (done.push ⟨t, p⟩).push ⟨.eof, s.place.next⟩
  | _ => words limit fuel t.allowsSign blocks (done.push ⟨t, p⟩) s

/-- The words of a script from a text on that was read, or that is at fault. -/
def wordsFromText (s : Scan) (p : Place) (blocks : List Nat) :
    Except (WordFault × Place) TextPiece → Array Word
  | .error (f, q) => wordsFrom limit fuel done (.bad f) q blocks s
  | .ok t =>
    if t.block then wordsFrom limit fuel done (.template t.text) p (0 :: blocks) t.scan
    else wordsFrom limit fuel done (.text t.text) p blocks t.scan

end

theorem cut_words (fuel : Nat) (signs : Bool) (blocks : List Nat) (done : Array Word) (s : Scan) :
    CutWords (words limit fuel signs blocks done s) (words 0 fuel signs blocks done s) := by
  induction fuel generalizing signs blocks done s with
  | zero => exact .refl _
  | succ fuel ih =>
    have hadd : ∀ (t : Token) (p : Place) (blocks : List Nat) (s' : Scan),
        CutWords (wordsFrom limit fuel done t p blocks s') (wordsFrom 0 fuel done t p blocks s') := by
      intro t p blocks s'
      cases t with
      | bad f => exact .refl _
      | _ => exact ih _ _ _ _
    have hpiece : ∀ {x y : Except (WordFault × Place) TextPiece}, Cut x y →
        ∀ (p : Place) (blocks : List Nat), CutWords (wordsFromText limit fuel done s p blocks x)
          (wordsFromText 0 fuel done s p blocks y) := by
      intro x y h p blocks
      rcases h with rfl | ⟨⟨f, q⟩, rfl⟩
      · cases x with
        | error e => exact .refl _
        | ok t => exact .ite (ih _ _ _ _) (ih _ _ _ _)
      · exact .bad done f q _ _
    unfold words
    dsimp only
    cases s.peek with
    | none => exact .refl _
    | some c =>
      dsimp only
      -- blanks, numerals, the three kinds of texts, a character, comments, names, symbols
      refine .ite (ih _ _ _ _) (.ite (hadd _ _ _ _) (.ite (hadd _ _ _ _)
        (.ite (hpiece (cut_readText limit _ _ _ _ _) _ _)
        (.ite (hpiece (cut_readText limit _ _ _ _ _) _ _)
        (.ite (hpiece (cut_readRaw limit _) _ _) (.ite (.ite (.refl _) ?_)
        (.ite (ih _ _ _ _) (.ite (ih _ _ _ _) (.ite (hadd _ _ _ _) (.ite (ih _ _ _ _) ?_))))))))))
      · -- a character
        rcases cut_readText limit '\'' false false false s.advance with heq | ⟨⟨f, q⟩, herr⟩
        · rw [heq]
          split
          · exact .refl _
          · split
            · exact ih _ _ _ _
            · exact .refl _
        · rw [herr]
          exact .bad done f q _ _
      · -- a symbol, behind which the text around an embedded block may go on
        split
        · exact .refl _
        split
        · rcases cut_readText limit '\x60' true false true _ with heq | ⟨⟨f, q⟩, herr⟩
          · rw [heq]
            split
            · exact .refl _
            · exact .ite (ih _ _ _ _) (ih _ _ _ _)
          · rw [herr]
            exact .bad _ f q _ _
        · exact ih _ _ _ _
        · exact ih _ _ _ _
        · exact ih _ _ _ _
        · exact hadd _ _ _ _

/-! ## The end of a script -/

/-- The last word is the end of the script, and no other word is. -/
def IsWhole (ws : List Word) : Prop :=
  ∃ body last, ws = body ++ [last] ∧ last.token = .eof ∧ ∀ w ∈ body, w.token ≠ .eof

theorem token_ne_eof (n : Numeral) (negative : Bool) : n.token negative ≠ .eof := by
  have hdecimal : ∀ cs, Numeral.token.decimal negative cs ≠ .eof := by
    intro cs
    unfold Numeral.token.decimal
    split <;> nofun
  unfold Numeral.token
  dsimp only
  by_cases hradix : n.radix = 10
  · rw [if_pos hradix]
    split
    · split <;> split <;> first | exact hdecimal _ | nofun
    · exact hdecimal _
  · rw [if_neg hradix]
    split
    · split <;> nofun
    · nofun

theorem symbolToken_ne_eof (s : String) : symbolToken s ≠ .eof := by
  unfold symbolToken
  split
  · nofun
  · split <;> nofun

theorem nameToken_ne_eof (s : String) : nameToken s ≠ .eof := by
  unfold nameToken
  split
  · nofun
  split
  · nofun
  split <;> nofun

theorem symbol_ne_eof {rest : List Char} {t : Token} {n : Nat} (h : symbol rest = some (t, n)) :
    t ≠ .eof := by
  unfold symbol at h
  split at h
  · cases h
    exact symbolToken_ne_eof _
  · cases h
    exact symbolToken_ne_eof _
  · split at h <;> cases h <;> nofun
  · cases h
    nofun
  · split at h
    · cases h
      split
      · nofun
      · exact symbolToken_ne_eof _
    · split at h
      · cases h
        exact symbolToken_ne_eof _
      · cases h
  · cases h

section Whole

variable {done : Array Word}

theorem isWhole_push (h : ∀ w ∈ done, w.token ≠ .eof) (p : Place) :
    IsWhole (done.push ⟨.eof, p⟩).toList := by
  refine ⟨done.toList, ⟨.eof, p⟩, Array.toList_push, rfl, ?_⟩
  intro w hw
  exact h w (Array.mem_toList_iff.mp hw)

theorem IsWhole.ite {c : Prop} [Decidable c] {x y : Array Word} (hx : IsWhole x.toList)
    (hy : IsWhole y.toList) : IsWhole (if c then x else y).toList := by
  split
  · exact hx
  · exact hy

theorem push_ne_eof (h : ∀ w ∈ done, w.token ≠ .eof) {t : Token} (ht : t ≠ .eof) (p : Place) :
    ∀ w ∈ done.push ⟨t, p⟩, w.token ≠ .eof := by
  intro w hw
  rcases Array.mem_push.mp hw with hw | rfl
  · exact h w hw
  · exact ht

theorem isWhole_words (fuel : Nat) (signs : Bool) (blocks : List Nat)
    (h : ∀ w ∈ done, w.token ≠ .eof) (s : Scan) :
    IsWhole (words limit fuel signs blocks done s).toList := by
  induction fuel generalizing signs blocks done s with
  | zero => exact isWhole_push h _
  | succ fuel ih =>
    have hbad : ∀ f p q, IsWhole ((done.push ⟨.bad f, p⟩).push ⟨.eof, q⟩).toList := by
      intro f p q
      exact isWhole_push (push_ne_eof h (by nofun) p) q
    have hadd : ∀ (t : Token), t ≠ .eof → ∀ (p : Place) (blocks : List Nat) (s' : Scan),
        IsWhole (wordsFrom limit fuel done t p blocks s').toList := by
      intro t ht p blocks s'
      cases t with
      | bad f => exact hbad f p _
      | _ => exact ih _ _ (push_ne_eof h ht p) _
    have hpiece : ∀ (x : Except (WordFault × Place) TextPiece) (p : Place) (blocks : List Nat),
        IsWhole (wordsFromText limit fuel done s p blocks x).toList := by
      intro x p blocks
      cases x with
      | error e => exact hbad _ _ _
      | ok t =>
        exact .ite (ih _ _ (push_ne_eof h (by nofun) p) _) (ih _ _ (push_ne_eof h (by nofun) p) _)
    unfold words
    dsimp only
    cases s.peek with
    | none => exact isWhole_push h _
    | some c =>
      dsimp only
      refine .ite (ih _ _ h _) (.ite (hadd _ (token_ne_eof _ _) _ _ _)
        (.ite (hadd _ (token_ne_eof _ _) _ _ _) (.ite (hpiece _ _ _) (.ite (hpiece _ _ _)
        (.ite (hpiece _ _ _) (.ite (.ite (hbad _ _ _) ?_) (.ite (ih _ _ h _) (.ite (ih _ _ h _)
        (.ite (hadd _ (nameToken_ne_eof _) _ _ _) (.ite (ih _ _ h _) ?_))))))))))
      · -- a character
        split
        · exact hbad _ _ _
        split
        · exact ih _ _ (push_ne_eof h (by nofun) _) _
        · exact hbad _ _ _
      -- a symbol, behind which the text around an embedded block may go on
      split
      · exact hbad _ _ _
      case h_2 t n hsymbol =>
        split
        · have hdone := push_ne_eof h (t := .symbol "\x7d") (by nofun) s.place.next
          split
          · exact isWhole_push (push_ne_eof hdone (by nofun) _) _
          · split
            · exact ih _ _ (push_ne_eof hdone (by nofun) _) _
            · exact ih _ _ (push_ne_eof hdone (by nofun) _) _
        · exact ih _ _ (push_ne_eof h (by nofun) _) _
        · exact ih _ _ (push_ne_eof h (by nofun) _) _
        · exact ih _ _ (push_ne_eof h (by nofun) _) _
        · exact hadd _ (symbol_ne_eof hsymbol) _ _ _

end Whole

end Scan

/-- **The words of a script under a limit** are those without one, unless one of them is bad. -/
theorem Token.scan_limit (limit : Nat) (script : String) :
    Token.scan limit script = Token.scan 0 script ∨ ∃ w ∈ Token.scan limit script, w.IsBad :=
  Scan.cut_words limit _ _ _ _ _

theorem Token.isWhole_scan (limit : Nat) (script : String) :
    Scan.IsWhole (Token.scan limit script).toList :=
  Scan.isWhole_words limit _ _ _ (fun w hw => absurd hw (Array.not_mem_empty w)) _

end ScriptedActions.Script
