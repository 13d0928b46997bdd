import ScriptedActions.Proofs.JsonPrinting
import ScriptedActions.Protocol.Timestamp

/-!
# Points in time in writing

A point in time that is written is read again (`Timestamp.parse_render`), to the nanosecond, in leap
seconds and in years of more than four digits or before the year `0`; and only points in time are
read (`Timestamp.isValid_of_parse`).

Reading is a sequence of parts, each of which takes its characters and leaves the rest. The parts are
gone through in their order, for the characters that are written alone.
-/

set_option autoImplicit false

namespace ScriptedActions

namespace Timestamp

open Json (decimal digitsFrom digits_decimal digitsFrom_decimal)
open Json.Reader (Digits NoDigit)

/-- A point in time that there is: its day is represented, and only a leap second, which is the last
one of a minute, has nanoseconds beyond those of a second. -/
structure IsValid (t : Timestamp) : Prop where
  date : Date.of? t.date.year t.date.month t.date.day = some t.date
  second : t.second < daySeconds
  nano : t.nano < 1000000000 ∨ t.second % 60 = 59 ∧ t.nano < 2000000000

theorem ok_bind {α β : Type} (a : α) (f : α → Except Fault β) :
    ((.ok a : Except Fault α) >>= f) = f a := rfl

/-! ## Numbers -/

theorem isDigit_iff (c : Char) : c.isDigit = Json.Reader.isDigit c := rfl

theorem digit?_of_isDigit {c : Char} (h : Json.Reader.isDigit c) :
    digit? c = some (Json.Reader.digitValue c) := by
  unfold digit?
  rw [isDigit_iff, if_pos h]
  rfl

theorem digit?_of_not_isDigit {c : Char} (h : Json.Reader.isDigit c = false) :
    digit? c = none := by
  unfold digit?
  rw [isDigit_iff, h, if_neg Bool.false_ne_true]

/-- As many digits as are allowed, or as there are. -/
theorem moreDigits_digits {ds rest : List Char} (hds : Digits ds) {fuel n : Nat}
    (hlength : ds.length ≤ fuel) (hstop : ds.length = fuel ∨ NoDigit rest)
    (hmax : digitsFrom n ds ≤ maxNumber) :
    moreDigits fuel n (ds ++ rest) = .ok (digitsFrom n ds, rest) := by
  induction ds generalizing fuel n with
  | nil =>
    cases fuel with
    | zero => rfl
    | succ fuel =>
      have hnone : NoDigit rest := hstop.resolve_left (Nat.succ_ne_zero fuel).symm
      cases rest with
      | nil => rfl
      | cons x rest =>
        have hx : digit? x = none := digit?_of_not_isDigit (hnone x rfl)
        simp only [List.nil_append, moreDigits, hx, digitsFrom, List.foldl_nil]
  | cons d ds ih =>
    obtain ⟨fuel, rfl⟩ := Nat.exists_eq_add_one_of_ne_zero (Nat.ne_zero_of_lt hlength)
    have hd : digit? d = some (Json.Reader.digitValue d) := digit?_of_isDigit (hds d (.head ds))
    have hsame : n * 10 + Json.Reader.digitValue d = 10 * n + Json.Reader.digitValue d := by
      rw [Nat.mul_comm]
    have hsmall : ¬ maxNumber < 10 * n + Json.Reader.digitValue d :=
      Nat.not_lt.mpr (Nat.le_trans (Json.Reader.le_digitsFrom _ ds) hmax)
    have hstop' : ds.length = fuel ∨ NoDigit rest := hstop.imp_left Nat.succ.inj
    simp only [List.cons_append, moreDigits, hd, hsame, if_neg hsmall]
    exact ih hds.of_cons (Nat.le_of_succ_le_succ hlength) hstop' hmax

theorem number_digits {ds rest : List Char} (hds : Digits ds) (hsome : ds ≠ []) {width : Nat}
    (hlength : ds.length ≤ width) (hstop : ds.length = width ∨ NoDigit rest)
    (hmax : digitsFrom 0 ds ≤ maxNumber) :
    number width (ds ++ rest) = .ok (digitsFrom 0 ds, rest) := by
  cases ds with
  | nil => exact absurd rfl hsome
  | cons d ds =>
    have hd : digit? d = some (Json.Reader.digitValue d) := digit?_of_isDigit (hds d (.head ds))
    have hread := moreDigits_digits hds hlength hstop hmax
    rw [List.cons_append] at hread ⊢
    simp only [number, hd, Option.isNone_some, Bool.false_eq_true, if_false, hread]

/-! ## Numbers with zeros in front -/

theorem toList_padded (width n : Nat) :
    (padded width n).toList = List.replicate (width - (decimal n).length) '0' ++ decimal n := by
  unfold padded decimal
  rw [Nat.toString_eq_ofList_toDigits]
  simp

theorem digits_padded (width n : Nat) : Digits (padded width n).toList := by
  intro c hc
  rw [toList_padded] at hc
  rcases List.mem_append.mp hc with hzero | hdigit
  · rw [List.eq_of_mem_replicate hzero]
    rfl
  · exact digits_decimal n c hdigit

theorem digitsFrom_padded (width n : Nat) : digitsFrom 0 (padded width n).toList = n := by
  have hzeros (k : Nat) : digitsFrom 0 (List.replicate k '0') = 0 := by
    induction k with
    | zero => rfl
    | succ k ih => exact ih
  have hsplit (ds es : List Char) : digitsFrom 0 (ds ++ es) = digitsFrom (digitsFrom 0 ds) es :=
    List.foldl_append
  rw [toList_padded, hsplit, hzeros, digitsFrom_decimal]

theorem length_padded {width n : Nat} (hwidth : 0 < width) (hn : n < 10 ^ width) :
    (padded width n).toList.length = width := by
  have hle : (decimal n).length ≤ width :=
    (Nat.length_toDigits_le_iff (by decide) hwidth).mpr hn
  rw [toList_padded, List.length_append, List.length_replicate]
  omega

/-- A number is read behind its zeros if it has all of its digits. -/
theorem number_padded {width n : Nat} (hwidth : 0 < width) (hn : n < 10 ^ width)
    (hmax : n ≤ maxNumber) (rest : List Char) :
    number width ((padded width n).toList ++ rest) = .ok (n, rest) := by
  have hlength := length_padded hwidth hn
  have hsome : (padded width n).toList ≠ [] := by
    intro hnil
    rw [hnil, List.length_nil] at hlength
    omega
  have hread := number_digits (digits_padded width n) hsome (Nat.le_of_eq hlength)
    (.inl hlength : _ ∨ NoDigit rest) (by rwa [digitsFrom_padded])
  rwa [digitsFrom_padded] at hread

/-! ## Between the numbers -/

theorem unindented_of_not_blank {c : Char} {cs : List Char} (h : Text.isBlank c = false) :
    unindented (c :: cs) = c :: cs := by
  unfold unindented
  rw [List.dropWhile_cons_of_neg (by rw [h]; exact Bool.false_ne_true)]

theorem not_blank_of_isDigit {c : Char} (h : Json.Reader.isDigit c) :
    Text.isBlank c = false := by
  have hrange : 48 ≤ c.toNat ∧ c.toNat ≤ 57 := by
    simpa [Json.Reader.isDigit, Char.le_def, UInt32.le_iff_toNat_le] using h
  unfold Text.isBlank
  simp only [Bool.or_eq_false_iff, Bool.and_eq_false_iff, beq_eq_false_iff_ne, ne_eq,
    decide_eq_false_iff_not]
  omega

theorem padded_cases (width n : Nat) :
    ∃ d ds, (padded width n).toList = d :: ds ∧ Json.Reader.isDigit d := by
  have hsome : (padded width n).toList ≠ [] := by
    rw [toList_padded]
    simp [decimal]
  obtain ⟨d, ds, hcons⟩ := List.exists_cons_of_ne_nil hsome
  exact ⟨d, ds, hcons, digits_padded width n d (hcons ▸ .head ds)⟩

theorem unindented_padded (width n : Nat) (rest : List Char) :
    unindented ((padded width n).toList ++ rest) = (padded width n).toList ++ rest := by
  obtain ⟨d, ds, hcons, hd⟩ := padded_cases width n
  rw [hcons]
  exact unindented_of_not_blank (not_blank_of_isDigit hd)

theorem mark_self {m : Char} (hm : Text.isBlank m = false) (cs : List Char) :
    mark m (m :: cs) = .ok cs := by
  unfold mark
  rw [unindented_of_not_blank hm]
  simp only [if_true]

theorem numberIn_padded {low high n : Nat} (hn : low ≤ n ∧ n ≤ high) (hhigh : high < 100)
    (rest : List Char) : numberIn 2 low high ((padded 2 n).toList ++ rest) = .ok (n, rest) := by
  have hmax : n ≤ maxNumber := by
    unfold maxNumber
    omega
  unfold numberIn
  rw [unindented_padded, number_padded (by decide) (by omega) hmax]
  exact if_pos hn

/-! ## Years -/

/-- Behind a sign a year has as many digits as there are. -/
theorem number_signed {n : Nat} (hmax : n ≤ maxNumber) {rest : List Char} (hrest : NoDigit rest) :
    number ((padded 4 n).toList ++ rest).length ((padded 4 n).toList ++ rest) = .ok (n, rest) := by
  obtain ⟨d, ds, hcons, -⟩ := padded_cases 4 n
  have hsome : (padded 4 n).toList ≠ [] := hcons ▸ List.cons_ne_nil d ds
  have hlength : (padded 4 n).toList.length ≤ ((padded 4 n).toList ++ rest).length := by
    rw [List.length_append]
    omega
  have hmax' : digitsFrom 0 (padded 4 n).toList ≤ maxNumber := (digitsFrom_padded 4 n).symm ▸ hmax
  have hread := number_digits (digits_padded 4 n) hsome hlength (.inr hrest) hmax'
  rw [digitsFrom_padded] at hread
  exact hread

theorem signedYear_plain {d : Char} {cs rest : List Char} {n : Nat} (hd : Json.Reader.isDigit d)
    (h : number 4 (d :: cs) = .ok (n, rest)) : signedYear (d :: cs) = .ok ((n : Int), rest) := by
  unfold signedYear
  split
  · obtain ⟨rfl, -⟩ := List.cons.inj ‹_›
    cases hd
  · obtain ⟨rfl, -⟩ := List.cons.inj ‹_›
    cases hd
  · rw [h]
    rfl

/-- A year is written without blanks, and read up to the mark behind it. -/
theorem signedYear_yearText {y : Int} (hlow : -0x80000000 ≤ y) (hhigh : y < 0x80000000)
    (rest : List Char) :
    unindented ((yearText y).toList ++ '-' :: rest) = (yearText y).toList ++ '-' :: rest ∧
      signedYear ((yearText y).toList ++ '-' :: rest) = .ok (y, '-' :: rest) := by
  have hmax : y.natAbs ≤ maxNumber := by
    unfold maxNumber
    omega
  have hstop : NoDigit ('-' :: rest) := fun x hx => by cases hx; rfl
  unfold yearText
  -- only a year of four digits has no sign, and it is read with no more digits than that
  by_cases hplain : 0 ≤ y ∧ y ≤ 9999
  · rw [if_pos hplain]
    have hread : number 4 ((padded 4 y.toNat).toList ++ '-' :: rest) =
        .ok (y.toNat, '-' :: rest) :=
      number_padded (by decide) (by omega) (by unfold maxNumber; omega) _
    obtain ⟨d, ds, hcons, hd⟩ := padded_cases 4 y.toNat
    refine ⟨unindented_padded 4 y.toNat _, ?_⟩
    rw [hcons] at hread ⊢
    have hyear := signedYear_plain hd hread
    rw [Int.toNat_of_nonneg hplain.1] at hyear
    exact hyear
  · have hread : number ((padded 4 y.natAbs).toList ++ '-' :: rest).length
        ((padded 4 y.natAbs).toList ++ '-' :: rest) = .ok (y.natAbs, '-' :: rest) :=
      number_signed hmax hstop
    rw [if_neg hplain, String.toList_append]
    by_cases hnegative : y < 0
    · have hvalue : -(y.natAbs : Int) = y := by omega
      rw [if_pos hnegative]
      refine ⟨unindented_of_not_blank rfl, ?_⟩
      show signedYear ('-' :: ((padded 4 y.natAbs).toList ++ '-' :: rest)) = _
      simp only [signedYear, hread]
      rw [ok_bind, hvalue]
      rfl
    · have hvalue : (y.natAbs : Int) = y := by omega
      rw [if_neg hnegative]
      refine ⟨unindented_of_not_blank rfl, ?_⟩
      show signedYear ('+' :: ((padded 4 y.natAbs).toList ++ '-' :: rest)) = _
      simp only [signedYear, hread]
      rw [ok_bind, hvalue]
      rfl

theorem year_yearText {y : Int} (hlow : -0x80000000 ≤ y) (hhigh : y < 0x80000000)
    (rest : List Char) : year ((yearText y).toList ++ '-' :: rest) = .ok (y, '-' :: rest) := by
  obtain ⟨hblanks, hread⟩ := signedYear_yearText hlow hhigh rest
  unfold year
  rw [hblanks, hread, ok_bind]
  exact if_pos ⟨hlow, hhigh⟩

/-! ## Fractions -/

theorem fraction_padded {width n : Nat} (hwidth : 0 < width ∧ width ≤ 9) (hn : n < 10 ^ width)
    {rest : List Char} (hrest : NoDigit rest) :
    fraction ((padded width n).toList ++ rest) = .ok (n * 10 ^ (9 - width), rest) := by
  have hlength := length_padded hwidth.1 hn
  have hsmall : n < 10 ^ 9 :=
    Nat.lt_of_lt_of_le hn (Nat.pow_le_pow_right (by decide) hwidth.2)
  have hmax : n ≤ maxNumber := by
    unfold maxNumber
    omega
  obtain ⟨d, ds, hcons, -⟩ := padded_cases width n
  have hsome : (padded width n).toList ≠ [] := hcons ▸ List.cons_ne_nil d ds
  have hread := number_digits (digits_padded width n) hsome (hlength ▸ hwidth.2) (.inr hrest)
    (by rwa [digitsFrom_padded])
  rw [digitsFrom_padded] at hread
  have hdropped : rest.dropWhile Char.isDigit = rest := by
    cases rest with
    | nil => rfl
    | cons x rest =>
      have hx : x.isDigit = false := hrest x rfl
      exact List.dropWhile_cons_of_neg (by rw [hx]; exact Bool.false_ne_true)
  unfold fraction
  rw [hread]
  show Except.ok (n * Nat.pow 10 (9 - (((padded width n).toList ++ rest).length - rest.length)),
    rest.dropWhile Char.isDigit) = _
  rw [hdropped, List.length_append, Nat.add_sub_cancel, hlength]
  rfl

theorem fraction_fractionText {nano : Nat} (h : nano < 1000000000) (hsome : nano ≠ 0)
    {rest : List Char} (hrest : NoDigit rest) :
    ∃ cs, (fractionText nano).toList = '.' :: cs ∧ fraction (cs ++ rest) = .ok (nano, rest) := by
  unfold fractionText
  rw [if_neg hsome]
  by_cases hmilli : nano % 1000000 = 0
  · rw [if_pos hmilli]
    refine ⟨(padded 3 (nano / 1000000)).toList, by simp, ?_⟩
    rw [fraction_padded (by decide) (by omega) hrest]
    congr 2
    omega
  · rw [if_neg hmilli]
    by_cases hmicro : nano % 1000 = 0
    · rw [if_pos hmicro]
      refine ⟨(padded 6 (nano / 1000)).toList, by simp, ?_⟩
      rw [fraction_padded (by decide) (by omega) hrest]
      congr 2
      omega
    · rw [if_neg hmicro]
      refine ⟨(padded 9 nano).toList, by simp, ?_⟩
      rw [fraction_padded (by decide) (by omega) hrest]
      congr 2
      omega

theorem subsecond_fractionText {nano : Nat} (h : nano < 1000000000) :
    subsecond ((fractionText nano).toList ++ ['Z']) = .ok (nano, ['Z']) := by
  by_cases hsome : nano = 0
  · subst hsome
    rfl
  · have hstop : NoDigit ['Z'] := fun x hx => by cases hx; rfl
    obtain ⟨cs, hcs, hread⟩ := fraction_fractionText h hsome hstop
    rw [hcs]
    exact hread

/-! ## Points in time -/

theorem shifted_within (date : Date) {second : Nat} (nano : Nat) {o : Int}
    (h : 0 ≤ (second : Int) - o ∧ (second : Int) - o < daySeconds) :
    shifted date second nano o = .ok ⟨date, ((second : Int) - o).toNat, nano⟩ := by
  unfold shifted
  dsimp only
  rw [if_neg (Int.not_lt.mpr h.1), if_pos h.2, Int.emod_eq_of_lt h.1 h.2]

theorem ofLocal_universal {date : Date} (hdate : Date.of? date.year date.month date.day = some date)
    {second : Nat} (hsecond : second < daySeconds) (nano : Nat) :
    ofLocal date.year date.month date.day second nano 0 = .ok ⟨date, second, nano⟩ := by
  have hoffset : ¬ ((0 : Int) ≤ -(daySeconds : Int) ∨ (daySeconds : Int) ≤ 0) := by decide
  unfold ofLocal
  rw [hdate]
  dsimp only
  rw [if_neg hoffset, shifted_within date nano (by omega), Int.sub_zero, Int.toNat_natCast]

/-- The characters of a time of day in universal time. -/
def clockText (hour minute second nano : Nat) : List Char :=
  (padded 2 hour).toList ++ ':' :: ((padded 2 minute).toList ++ ':' :: ((padded 2 second).toList ++
    ((fractionText nano).toList ++ ['Z'])))

theorem toList_render (t : Timestamp) : ∃ second nano,
    t.render.toList = (yearText t.date.year).toList ++ '-' :: ((padded 2 t.date.month).toList ++
      '-' :: ((padded 2 t.date.day).toList ++ 'T' ::
        clockText (t.second / 3600) (t.second / 60 % 60) second nano)) ∧
    (t.nano < 1000000000 → second = t.second % 60 ∧ nano = t.nano) ∧
    (1000000000 ≤ t.nano → second = t.second % 60 + 1 ∧ nano = t.nano - 1000000000) := by
  by_cases hleap : 1000000000 ≤ t.nano
  · refine ⟨t.second % 60 + 1, t.nano - 1000000000, ?_, by omega, by omega⟩
    simp [render, clockText, hleap]
  · refine ⟨t.second % 60, t.nano, ?_, by omega, by omega⟩
    simp [render, clockText, hleap]

/-- What is read of the characters of a date and a time. -/
theorem parse_of_parts {text : String} {y : Int} {m d hour minute second nano : Nat}
    (htext : text.toList = (yearText y).toList ++ '-' :: ((padded 2 m).toList ++
      '-' :: ((padded 2 d).toList ++ 'T' :: clockText hour minute second nano)))
    (hy : -0x80000000 ≤ y ∧ y < 0x80000000) (hm : 1 ≤ m ∧ m ≤ 12) (hd : 1 ≤ d ∧ d ≤ 31)
    (hhour : hour ≤ 23) (hminute : minute ≤ 59) (hsecond : second ≤ 60)
    (hnano : nano < 1000000000) :
    parse text =
      if second = 60 then ofLocal y m d (hour * 3600 + minute * 60 + 59) (nano + 1000000000) 0
      else ofLocal y m d (hour * 3600 + minute * 60 + second) nano 0 := by
  unfold parse
  -- each part leaves the characters of the parts behind it
  rw [htext, year_yearText hy.1 hy.2, ok_bind]
  dsimp only
  rw [mark_self rfl, ok_bind, numberIn_padded hm (by decide), ok_bind]
  dsimp only
  rw [mark_self rfl, ok_bind, numberIn_padded hd (by decide), ok_bind]
  dsimp only
  have hseparator : separator ('T' :: clockText hour minute second nano) =
      .ok (clockText hour minute second nano) := rfl
  rw [hseparator, ok_bind]
  unfold clockText
  rw [numberIn_padded ⟨Nat.zero_le hour, hhour⟩ (by decide), ok_bind]
  dsimp only
  rw [mark_self rfl, ok_bind, numberIn_padded ⟨Nat.zero_le minute, hminute⟩ (by decide), ok_bind]
  dsimp only
  rw [mark_self rfl, ok_bind, numberIn_padded ⟨Nat.zero_le second, hsecond⟩ (by decide), ok_bind]
  dsimp only
  rw [subsecond_fractionText hnano, ok_bind]
  rfl

theorem date_bounds {y : Int} {m d : Nat} {date : Date} (h : Date.of? y m d = some date) :
    (-262143 ≤ y ∧ y ≤ 262142) ∧ (1 ≤ m ∧ m ≤ 12) ∧ (1 ≤ d ∧ d ≤ 31) ∧ date = ⟨y, m, d⟩ := by
  unfold Date.of? at h
  split at h
  · obtain ⟨hlow, hhigh, hm, hm', hd, hd'⟩ := ‹_ ∧ _›
    have hdays : Date.daysIn y m ≤ 31 := by
      unfold Date.daysIn
      split
      · split <;> decide
      · split <;> decide
    exact ⟨⟨hlow, hhigh⟩, ⟨hm, hm'⟩, ⟨hd, Nat.le_trans hd' hdays⟩, (Option.some.inj h).symm⟩
  · cases h

/-- **What is written is read again**: every point in time, to the nanosecond. -/
theorem parse_render {t : Timestamp} (h : t.IsValid) : parse t.render = .ok t := by
  obtain ⟨hdate, hday, hnano⟩ := h
  obtain ⟨hy, hm, hd, -⟩ := date_bounds hdate
  unfold daySeconds at hday
  obtain ⟨second, nano, htext, hplain, hleap⟩ := toList_render t
  -- a leap second is written as the second after it, and read as the second before
  by_cases h : t.nano < 1000000000
  · obtain ⟨rfl, rfl⟩ := hplain h
    rw [parse_of_parts htext (by omega) hm hd (by omega) (by omega) (by omega) h]
    have hsecond : t.second / 3600 * 3600 + t.second / 60 % 60 * 60 + t.second % 60 = t.second := by
      omega
    rw [if_neg (by omega), hsecond, ofLocal_universal hdate hday]
  · obtain ⟨hsame, hrest⟩ := hleap (Nat.not_lt.mp h)
    obtain ⟨hlast, hless⟩ := hnano.resolve_left h
    rw [parse_of_parts htext (by omega) hm hd (by omega) (by omega) (by omega) (by omega)]
    have hsecond : t.second / 3600 * 3600 + t.second / 60 % 60 * 60 + 59 = t.second := by omega
    have hnano : nano + 1000000000 = t.nano := by omega
    rw [if_pos (by omega), hsecond, hnano, ofLocal_universal hdate hday]

/-! ## What is read -/

theorem of_bind_ok {α β : Type} {x : Except Fault α} {f : α → Except Fault β} {b : β}
    (h : (x >>= f) = .ok b) : ∃ a, x = .ok a ∧ f a = .ok b := by
  cases x with
  | error e => cases h
  | ok a => exact ⟨a, rfl, h⟩

theorem digit?_lt {c : Char} {d : Nat} (h : digit? c = some d) : d < 10 := by
  unfold digit? at h
  split at h
  · have hdigit : Json.Reader.isDigit c := ‹c.isDigit = true›
    have hle := Json.Reader.digitValue_le hdigit
    unfold Json.Reader.digitValue at hle
    cases h
    omega
  · cases h

theorem moreDigits_lt {fuel n k places : Nat} {cs rest : List Char}
    (h : moreDigits fuel n cs = .ok (k, rest)) (hn : n < 10 ^ places) :
    ∃ count ≤ fuel, cs.length = rest.length + count ∧ k < 10 ^ (places + count) := by
  induction cs generalizing fuel n places with
  | nil =>
    have hsame : k = n ∧ rest = [] := by cases fuel <;> cases h <;> exact ⟨rfl, rfl⟩
    obtain ⟨rfl, rfl⟩ := hsame
    exact ⟨0, Nat.zero_le fuel, rfl, hn⟩
  | cons c cs ih =>
    cases fuel with
    | zero =>
      cases h
      exact ⟨0, Nat.le_refl 0, rfl, hn⟩
    | succ fuel =>
      -- a digit more is a place more
      have hnext {d : Nat} (hd : d < 10) : n * 10 + d < 10 ^ (places + 1) := by
        rw [Nat.pow_succ]
        omega
      unfold moreDigits at h
      split at h
      · cases h
        exact ⟨0, Nat.zero_le _, rfl, hn⟩
      · rename_i d hfound
        split at h
        · cases h
        · obtain ⟨count, hcount, hlength, hk⟩ := ih h (hnext (digit?_lt hfound))
          refine ⟨count + 1, Nat.succ_le_succ hcount, ?_, ?_⟩
          · rw [List.length_cons, hlength, Nat.add_assoc]
          · rw [Nat.add_comm count 1, ← Nat.add_assoc]
            exact hk

theorem subsecond_lt {cs rest : List Char} {nano : Nat} (h : subsecond cs = .ok (nano, rest)) :
    nano < 1000000000 := by
  unfold subsecond at h
  split at h
  · rename_i cs
    unfold fraction at h
    obtain ⟨⟨n, rest'⟩, hnumber, h⟩ := of_bind_ok h
    cases h
    cases cs with
    | nil => cases hnumber
    | cons c cs =>
      unfold number at hnumber
      dsimp only at hnumber
      split at hnumber
      · cases hnumber
      · obtain ⟨count, hcount, hlength, hn⟩ := moreDigits_lt hnumber (show 0 < 10 ^ 0 from Nat.one_pos)
        have hread : (c :: cs).length - rest'.length = count := by omega
        rw [Nat.zero_add] at hn
        rw [hread]
        have hpos : 0 < 10 ^ (9 - count) := Nat.pow_pos (by decide)
        have hless : n * 10 ^ (9 - count) < 10 ^ count * 10 ^ (9 - count) :=
          Nat.mul_lt_mul_of_pos_right hn hpos
        rw [← Nat.pow_add, Nat.add_sub_cancel' hcount] at hless
        exact hless
  · cases h
    decide

theorem zone_minutes {cs rest : List Char} {o : Int} (h : zone cs = .ok (o, rest)) :
    o % 60 = 0 := by
  have hoffset {cs rest : List Char} (h : offset cs = .ok (o, rest)) : o % 60 = 0 := by
    unfold offset at h
    split at h
    · cases h
      rfl
    · cases h
      rfl
    · cases h
    · split at h
      · obtain ⟨⟨⟨a, b⟩, cs'⟩, -, h⟩ := of_bind_ok h
        obtain ⟨⟨⟨c, d⟩, cs''⟩, -, h⟩ := of_bind_ok h
        dsimp only at h
        split at h
        · cases h
        · cases h
          split <;> omega
      · cases h
  unfold zone at h
  split at h
  · split at h
    · cases h
      rfl
    · exact hoffset h
  · exact hoffset h

theorem of?_self {y : Int} {m d : Nat} {date : Date} (h : Date.of? y m d = some date) :
    Date.of? date.year date.month date.day = some date := by
  obtain ⟨-, -, -, rfl⟩ := date_bounds h
  exact h

theorem one_le_daysIn (y : Int) (m : Nat) : 1 ≤ Date.daysIn y m := by
  unfold Date.daysIn
  split
  · split <;> decide
  · split <;> decide

/-- The day before and the day after one that is represented are represented, if there are any. -/
theorem of?_previous {date d : Date} (hdate : Date.of? date.year date.month date.day = some date)
    (h : date.previous? = some d) : Date.of? d.year d.month d.day = some d := by
  obtain ⟨hy, hm, hd, -⟩ := date_bounds hdate
  unfold Date.of? at hdate
  split at hdate
  · obtain ⟨hlow, hhigh, hm, hm', hd, hd'⟩ := ‹_ ∧ _›
    unfold Date.previous? at h
    split at h
    · cases h
      exact if_pos ⟨hlow, hhigh, hm, hm', by dsimp only; omega, by dsimp only; omega⟩
    · split at h
      · cases h
        have hdays := one_le_daysIn date.year (date.month - 1)
        exact if_pos ⟨hlow, hhigh, by dsimp only; omega, by dsimp only; omega, hdays, Nat.le_refl _⟩
      · exact of?_self h
  · cases hdate

theorem of?_next {date d : Date} (hdate : Date.of? date.year date.month date.day = some date)
    (h : date.next? = some d) : Date.of? d.year d.month d.day = some d := by
  unfold Date.of? at hdate
  split at hdate
  · obtain ⟨hlow, hhigh, hm, hm', hd, hd'⟩ := ‹_ ∧ _›
    unfold Date.next? at h
    split at h
    · cases h
      exact if_pos ⟨hlow, hhigh, hm, hm', by dsimp only; omega, by dsimp only; omega⟩
    · split at h
      · cases h
        have hdays := one_le_daysIn date.year (date.month + 1)
        exact if_pos ⟨hlow, hhigh, by dsimp only; omega, by dsimp only; omega, Nat.le_refl 1, hdays⟩
      · exact of?_self h
  · cases hdate

theorem isValid_of_ofLocal {y o : Int} {m d second nano : Nat} {t : Timestamp}
    (hnano : nano < 1000000000 ∨ second % 60 = 59 ∧ nano < 2000000000) (ho : o % 60 = 0)
    (h : ofLocal y m d second nano o = .ok t) : t.IsValid := by
  unfold ofLocal at h
  split at h
  · cases h
  · rename_i date hdate
    replace hdate := of?_self hdate
    split at h
    · cases h
    · unfold shifted at h
      dsimp only at h
      split at h
      · rename_i found hfound
        cases h
        -- an offset is a number of minutes, so it leaves the seconds of a minute alone
        refine ⟨?_, ?_, ?_⟩
        · dsimp only
          split at hfound
          · exact of?_previous hdate hfound
          · split at hfound
            · cases hfound
              exact hdate
            · exact of?_next hdate hfound
        · dsimp only
          unfold daySeconds
          omega
        · dsimp only
          unfold daySeconds
          omega
      · cases h

/-- **Only points in time are read.** -/
theorem isValid_of_parse {text : String} {t : Timestamp} (h : parse text = .ok t) : t.IsValid := by
  unfold parse at h
  obtain ⟨⟨y, c₁⟩, -, h⟩ := of_bind_ok h
  obtain ⟨c₂, -, h⟩ := of_bind_ok h
  obtain ⟨⟨m, c₃⟩, -, h⟩ := of_bind_ok h
  obtain ⟨c₄, -, h⟩ := of_bind_ok h
  obtain ⟨⟨d, c₅⟩, -, h⟩ := of_bind_ok h
  obtain ⟨c₆, -, h⟩ := of_bind_ok h
  obtain ⟨⟨hour, c₇⟩, -, h⟩ := of_bind_ok h
  obtain ⟨c₈, -, h⟩ := of_bind_ok h
  obtain ⟨⟨minute, c₉⟩, -, h⟩ := of_bind_ok h
  obtain ⟨c₁₀, -, h⟩ := of_bind_ok h
  obtain ⟨⟨second, c₁₁⟩, hsecond, h⟩ := of_bind_ok h
  obtain ⟨⟨nano, c₁₂⟩, hnano, h⟩ := of_bind_ok h
  obtain ⟨⟨o, c₁₃⟩, ho, h⟩ := of_bind_ok h
  dsimp only at h
  have hless := subsecond_lt hnano
  have hminutes := zone_minutes ho
  split at h
  · cases h
  · split at h
    · exact isValid_of_ofLocal (.inr ⟨by omega, by omega⟩) hminutes h
    · exact isValid_of_ofLocal (.inl hless) hminutes h

end Timestamp

end ScriptedActions
