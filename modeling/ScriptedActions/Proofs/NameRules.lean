import ScriptedActions.Proofs.Confinement

/-!
# The rules for names

Which names are allowed, and which rule a name that is not allowed breaks first. The rules are
worded in characters: a name has 1 to 64 of them, and each is a letter, a digit, `_` or `-` of
ASCII.

**The check counts bytes.** For the names that are allowed this is the same, since each of their
characters is one byte. It is not the same for what is told about the others: a name of 33
characters of two bytes each is refused as one that is 66 characters long, and not because of its
first character. So what the check tells is stated with the length that it measures (`Breaks`), and
it agrees with the wording exactly if the bytes do not exceed the limit or are the characters
(`check_by_rules`).
-/

set_option autoImplicit false

namespace ScriptedActions.Naming

/-! ## Bytes and characters -/

/-- The bytes of a text are those of its characters. -/
theorem utf8ByteSize_cons (c : Char) (cs : List Char) :
    (String.ofList (c :: cs)).utf8ByteSize = c.utf8Size + (String.ofList cs).utf8ByteSize := by
  have hsplit : String.ofList (c :: cs) = String.singleton c ++ String.ofList cs := by
    rw [String.singleton_eq_ofList, ← String.ofList_append, List.singleton_append]
  rw [hsplit, String.utf8ByteSize_append, String.utf8ByteSize_singleton]

theorem length_le_utf8ByteSize_ofList (cs : List Char) :
    cs.length ≤ (String.ofList cs).utf8ByteSize := by
  induction cs with
  | nil => exact Nat.le_refl 0
  | cons c cs ih =>
    have hone : 0 < c.utf8Size := c.utf8Size_pos
    rw [List.length_cons, utf8ByteSize_cons]
    omega

theorem utf8ByteSize_ofList_eq_length_iff (cs : List Char) :
    (String.ofList cs).utf8ByteSize = cs.length ↔ ∀ c ∈ cs, c.val ≤ 127 := by
  induction cs with
  | nil => simp
  | cons c cs ih =>
    have hone : 0 < c.utf8Size := c.utf8Size_pos
    have hrest := length_le_utf8ByteSize_ofList cs
    rw [utf8ByteSize_cons, List.length_cons, List.forall_mem_cons, ← ih,
      ← Char.utf8Size_eq_one_iff]
    omega

/-- The characters of a text are all of ASCII. -/
def IsAscii (text : String) : Prop := ∀ c ∈ text.toList, c.val ≤ 127

theorem length_le_utf8ByteSize (text : String) : text.length ≤ text.utf8ByteSize := by
  have hle := length_le_utf8ByteSize_ofList text.toList
  rwa [String.ofList_toList, String.length_toList] at hle

/-- A text has as many bytes as characters exactly if it is of ASCII. -/
theorem utf8ByteSize_eq_length_iff (text : String) :
    text.utf8ByteSize = text.length ↔ IsAscii text := by
  have hiff := utf8ByteSize_ofList_eq_length_iff text.toList
  rwa [String.ofList_toList, String.length_toList] at hiff

/-! ## The characters of names -/

/-- The characters of which names are made. -/
inductive IsNameChar : Char → Prop
  | upper {c : Char} : 'A' ≤ c → c ≤ 'Z' → IsNameChar c
  | lower {c : Char} : 'a' ≤ c → c ≤ 'z' → IsNameChar c
  | digit {c : Char} : '0' ≤ c → c ≤ '9' → IsNameChar c
  | underscore : IsNameChar '_'
  | hyphen : IsNameChar '-'

theorem isAllowed_iff (c : Char) : isAllowed c ↔ IsNameChar c := by
  have hranges : isAllowed c = (((decide ('A' ≤ c ∧ c ≤ 'Z') ||
      (decide ('a' ≤ c) && decide (c ≤ 'z'))) || (decide ('0' ≤ c) && decide (c ≤ '9'))) ||
      c == '_' || c == '-') := rfl
  simp only [hranges, Bool.or_eq_true, Bool.and_eq_true, decide_eq_true_eq, beq_iff_eq, or_assoc]
  constructor
  · rintro (h | h | h | rfl | rfl)
    · exact .upper h.1 h.2
    · exact .lower h.1 h.2
    · exact .digit h.1 h.2
    · exact .underscore
    · exact .hyphen
  · intro h
    cases h with
    | upper h h' => exact .inl ⟨h, h'⟩
    | lower h h' => exact .inr (.inl ⟨h, h'⟩)
    | digit h h' => exact .inr (.inr (.inl ⟨h, h'⟩))
    | underscore => exact .inr (.inr (.inr (.inl rfl)))
    | hyphen => exact .inr (.inr (.inr (.inr rfl)))

theorem IsNameChar.val_le {c : Char} (h : IsNameChar c) : c.val ≤ 127 := by
  have hbelow {a b : Char} (hle : a ≤ b) (hb : b.val ≤ 127) : a.val ≤ 127 :=
    UInt32.le_trans (Char.le_def.mp hle) hb
  cases h with
  | upper _ h => exact hbelow h (by decide)
  | lower _ h => exact hbelow h (by decide)
  | digit _ h => exact hbelow h (by decide)
  | underscore => decide
  | hyphen => decide

/-! ## The rules -/

/-- A name keeps all rules. -/
structure Keeps (name : String) : Prop where
  nonempty : 1 ≤ name.length
  short : name.length ≤ 64
  characters : ∀ c ∈ name.toList, IsNameChar c

/-- A character is the first one of a name that no name may contain. -/
def IsFirstOther (name : String) (c : Char) : Prop :=
  ∃ before after, name.toList = before ++ c :: after ∧ (∀ b ∈ before, IsNameChar b) ∧ ¬ IsNameChar c

/-- The first rule that a name breaks, if its length is measured by `size`. -/
inductive Breaks (size : String → Nat) (name : String) : NameError → Prop
  | empty : name = "" → Breaks size name .empty
  | tooLong : 64 < size name → Breaks size name (.tooLong (size name))
  | invalidCharacter {c : Char} : name ≠ "" → size name ≤ 64 → IsFirstOther name c →
    Breaks size name (.invalidCharacter name c)

variable {name : String}

theorem Keeps.isAscii (h : Keeps name) : IsAscii name := fun c hc => (h.characters c hc).val_le

/-- The characters of an allowed name are bytes, so it does not matter which are counted. -/
theorem check_eq_ok_iff_keeps (name : String) : check name = .ok () ↔ Keeps name := by
  rw [check_eq_ok_iff]
  constructor
  · rintro ⟨hne, hbytes, hall⟩
    refine ⟨?_, Nat.le_trans (length_le_utf8ByteSize name) hbytes, fun c hc => ?_⟩
    · rw [Nat.one_le_iff_ne_zero, Ne, String.length_eq_zero_iff]
      exact hne
    · exact (isAllowed_iff c).mp (hall c hc)
  · intro h
    refine ⟨?_, ?_, fun c hc => (isAllowed_iff c).mpr (h.characters c hc)⟩
    · rintro rfl
      exact absurd h.nonempty (by decide)
    · rw [(utf8ByteSize_eq_length_iff name).mpr h.isAscii]
      exact h.short

theorem isFirstOther_of_find? {c : Char} (h : name.toList.find? (fun c => !isAllowed c) = some c) :
    IsFirstOther name c := by
  obtain ⟨hc, before, after, hsplit, hbefore⟩ := List.find?_eq_some_iff_append.mp h
  refine ⟨before, after, hsplit, fun b hb => ?_, fun hallowed => ?_⟩
  · exact (isAllowed_iff b).mp (by simpa using hbefore b hb)
  · rw [(isAllowed_iff c).mpr hallowed] at hc
    cases hc

/-- A refused name breaks the rule that it is refused with, in bytes. -/
theorem breaks_of_check {e : NameError} (h : check name = .error e) :
    Breaks String.utf8ByteSize name e := by
  unfold check at h
  split at h
  case isTrue hempty =>
    cases h
    exact .empty (by simpa using hempty)
  case isFalse hempty =>
    split at h
    case isTrue hlong =>
      cases h
      exact .tooLong hlong
    case isFalse hlong =>
      split at h
      case h_1 c hfind =>
        cases h
        exact .invalidCharacter (by simpa using hempty) (Nat.not_lt.mp hlong)
          (isFirstOther_of_find? hfind)
      case h_2 => cases h

/-- There is one first character that no name may contain. -/
theorem IsFirstOther.unique {c d : Char} (hc : IsFirstOther name c) (hd : IsFirstOther name d) :
    c = d := by
  have hfind {c : Char} (h : IsFirstOther name c) :
      name.toList.find? (fun c => !isAllowed c) = some c := by
    obtain ⟨before, after, hsplit, hbefore, hc⟩ := h
    refine List.find?_eq_some_iff_append.mpr ⟨?_, before, after, hsplit, fun b hb => ?_⟩
    · simpa using mt (isAllowed_iff c).mp hc
    · simpa using (isAllowed_iff b).mpr (hbefore b hb)
  exact Option.some.inj ((hfind hc).symm.trans (hfind hd))

/-- A name breaks one rule first. -/
theorem Breaks.unique {size : String → Nat} (hzero : size "" ≤ 64) {e f : NameError}
    (he : Breaks size name e) (hf : Breaks size name f) : e = f := by
  cases he with
  | empty h =>
    subst h
    cases hf with
    | empty => rfl
    | tooLong hlong => exact absurd hlong (Nat.not_lt.mpr hzero)
    | invalidCharacter hne => exact absurd rfl hne
  | tooLong hlong =>
    cases hf with
    | empty h =>
      subst h
      exact absurd hlong (Nat.not_lt.mpr hzero)
    | tooLong => rfl
    | invalidCharacter _ hshort => exact absurd hlong (Nat.not_lt.mpr hshort)
  | invalidCharacter hne hshort hc =>
    cases hf with
    | empty h => exact absurd h hne
    | tooLong hlong => exact absurd hlong (Nat.not_lt.mpr hshort)
    | invalidCharacter _ _ hd => rw [hc.unique hd]

/-- A name that breaks a rule does not keep all of them. -/
theorem Breaks.not_keeps {e : NameError} (h : Breaks String.utf8ByteSize name e) :
    ¬ Keeps name := by
  intro hkeeps
  cases h with
  | empty hempty =>
    subst hempty
    exact absurd hkeeps.nonempty (by decide)
  | tooLong hlong =>
    rw [(utf8ByteSize_eq_length_iff name).mpr hkeeps.isAscii] at hlong
    exact absurd hlong (Nat.not_lt.mpr hkeeps.short)
  | @invalidCharacter c _ _ hother =>
    obtain ⟨before, after, hsplit, -, hc⟩ := hother
    exact hc (hkeeps.characters c (by simp [hsplit]))

theorem check_eq_error_iff (name : String) (e : NameError) :
    check name = .error e ↔ Breaks String.utf8ByteSize name e := by
  refine ⟨breaks_of_check, fun h => ?_⟩
  cases hcheck : check name with
  | ok =>
    exact absurd ((check_eq_ok_iff_keeps name).mp hcheck) h.not_keeps
  | error f => rw [h.unique (by decide) (breaks_of_check hcheck)]

/-- The rule that a name breaks in bytes is the one that it breaks in characters exactly if its
bytes are within the limit, or are its characters. -/
theorem Breaks.in_characters_iff {e : NameError} (h : Breaks String.utf8ByteSize name e) :
    Breaks String.length name e ↔ name.utf8ByteSize ≤ 64 ∨ IsAscii name := by
  constructor
  · intro h'
    rcases Nat.lt_or_ge 64 name.utf8ByteSize with hlong | hshort
    · obtain rfl := h.unique (by decide) (.tooLong hlong)
      refine .inr ((utf8ByteSize_eq_length_iff name).mp ?_)
      generalize name.utf8ByteSize = n at h' ⊢
      cases h' with
      | tooLong => rfl
    · exact .inl hshort
  · rintro (hshort | hascii)
    · cases h with
      | empty hempty => exact .empty hempty
      | tooLong hlong => exact absurd hlong (Nat.not_lt.mpr hshort)
      | invalidCharacter hne _ hc =>
        exact .invalidCharacter hne (Nat.le_trans (length_le_utf8ByteSize name) hshort) hc
    · have hsame := (utf8ByteSize_eq_length_iff name).mpr hascii
      cases h with
      | empty hempty => exact .empty hempty
      | tooLong hlong =>
        rw [hsame] at hlong ⊢
        exact .tooLong hlong
      | invalidCharacter hne hshort hc => exact .invalidCharacter hne (hsame ▸ hshort) hc

/-- **What the check says of every name.** A name is accepted exactly if it keeps the rules, and
refused with the first rule that it breaks. The length of a name is measured in bytes there; what is
told is the rule that is broken in characters exactly if this makes no difference. -/
theorem check_by_rules (name : String) :
    (check name = .ok () ↔ Keeps name) ∧
    (∀ e, check name = .error e ↔ Breaks String.utf8ByteSize name e) ∧
    ∀ e, check name = .error e →
      (Breaks String.length name e ↔ name.utf8ByteSize ≤ 64 ∨ IsAscii name) := by
  refine ⟨check_eq_ok_iff_keeps name, check_eq_error_iff name, ?_⟩
  intro e he
  exact ((check_eq_error_iff name e).mp he).in_characters_iff

/-- Thirty-three characters of two bytes each are too long, and are told to be twice as many. -/
example : check (String.ofList (List.replicate 33 'é')) = .error (.tooLong 66) := rfl

end ScriptedActions.Naming
