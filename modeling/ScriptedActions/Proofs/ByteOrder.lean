import Mathlib.Data.String.Basic

/-!
# The order of names

Names are compared by their code points. The bytes of their encoding are in the same order: the
first byte of a code point tells how many bytes it has, longer codes have larger first bytes, and
among codes of one length the digits stand with the highest one in front.
-/

set_option autoImplicit false

namespace ScriptedActions

/-- The bytes of a text. -/
def bytesOf (s : String) : List UInt8 := s.toUTF8.data.toList

theorem bytesOf_eq (s : String) : bytesOf s = s.toList.flatMap String.utf8EncodeChar := by
  unfold bytesOf
  rw [String.toUTF8, ← String.utf8Encode_toList, List.utf8Encode, List.data_toByteArray]

theorem encode_ne_nil (c : Char) : String.utf8EncodeChar c ≠ [] := by
  intro hnil
  have hlength := String.length_utf8EncodeChar c
  rw [hnil] at hlength
  exact (Char.utf8Size_pos c).ne hlength

/-- The codes of two characters differ in a byte that puts them in the order of the characters. -/
theorem encode_append_lt {c d : Char} (h : c < d) (xs ys : List UInt8) :
    String.utf8EncodeChar c ++ xs < String.utf8EncodeChar d ++ ys := by
  have hlt : c.val.toNat < d.val.toNat := h
  have hd : d.val.toNat < 0x110000 := by
    rcases d.valid with h | h
    · exact h.trans (by decide)
    · exact h.2
  unfold String.utf8EncodeChar
  dsimp only
  generalize c.val.toNat = m at hlt
  generalize d.val.toNat = n at hlt hd
  have hdigits : ∀ k < 0x110000,
      k / 64 / 64 = k / 4096 ∧ k / 4096 / 64 = k / 262144 ∧ k / 262144 % 8 = k / 262144 := by
    intro k hk
    refine ⟨Nat.div_div_eq_div_mul .., Nat.div_div_eq_div_mul .., Nat.mod_eq_of_lt ?_⟩
    omega
  have hm := hdigits m (hlt.trans hd)
  have hn := hdigits n hd
  -- one case for every pair of lengths; what stands behind the codes does not matter
  by_cases hrest : xs < ys <;> split_ifs <;>
    simp only [List.cons_append, List.nil_append, List.cons_lt_cons_iff, UInt8.lt_iff_toNat_lt,
      ← UInt8.toNat_inj, UInt8.toNat_ofNat', Nat.reducePow, hrest, and_true, and_false,
      or_false] <;>
    simp (disch := omega) only [Nat.mod_eq_of_lt (b := 256)] <;> omega

theorem encode_lt {cs ds : List Char} (h : cs < ds) :
    cs.flatMap String.utf8EncodeChar < ds.flatMap String.utf8EncodeChar := by
  induction h with
  | @nil d ds =>
    rw [List.flatMap_nil, List.flatMap_cons]
    cases hcode : String.utf8EncodeChar d with
    | nil => exact absurd hcode (encode_ne_nil d)
    | cons b bs => exact .nil
  | cons _ ih =>
    rw [List.flatMap_cons, List.flatMap_cons]
    exact List.append_left_lt ih
  | rel h => exact encode_append_lt h _ _

/-- **Texts are in the order of their bytes.** -/
theorem bytesOf_lt_iff (s t : String) : bytesOf s < bytesOf t ↔ s < t := by
  rw [bytesOf_eq, bytesOf_eq, String.lt_iff_toList_lt]
  constructor
  · intro h
    rcases lt_trichotomy s.toList t.toList with hlt | heq | hgt
    · exact hlt
    · rw [heq] at h
      exact absurd h (List.lt_irrefl _)
    · exact absurd (encode_lt hgt) (List.lt_asymm h)
  · exact encode_lt

end ScriptedActions
