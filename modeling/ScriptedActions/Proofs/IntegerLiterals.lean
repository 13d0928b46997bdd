import ScriptedActions.Proofs.Dispatch
import ScriptedActions.Proofs.Integers
import ScriptedActions.Proofs.JsonMeaning
import ScriptedActions.Proofs.Table

/-!
# Integers of payloads

Which integers a script gets for the numbers in the text of a payload. A number is written with
its digits, and `Tree.Counts` says whether it stands in the value that is read: it does unless it
is in a member whose name comes again. The integers of the value are the integers among these
numbers that 64 bits can hold, signed or unsigned, and nothing else (`Reads.contains_iff`).

So `Dispatcher.run_of_literals` is about texts. An integer between the greatest script integer and
the greatest unsigned one keeps a script from being run. One that 64 bits cannot hold does not: it
has become a float before anybody looks for integers that are too large.
-/

set_option autoImplicit false

namespace ScriptedActions

namespace Json

/-! ## Numbers that count -/

/-- The members of an object with the names that they spell. -/
def spelled (ms : List (List Piece × Tree)) : List (Option (List Char) × Tree) :=
  ms.map fun m => (unescape m.1, m.2)

theorem spelled_cons (pieces : List Piece) (t : Tree) (ms : List (List Piece × Tree)) :
    spelled ((pieces, t) :: ms) = (unescape pieces, t) :: spelled ms := rfl

/-- A number of a text counts for its value. Of several members of one name only the last one
does. -/
inductive Tree.Counts (l : Literal) : Tree → Prop
  | number : Counts l (.number l)
  | item {ts : List Tree} {t : Tree} : t ∈ ts → Counts l t → Counts l (.array ts)
  | member {ms : List (List Piece × Tree)} {name : Option (List Char)} {t : Tree} :
    Table.IsLast (spelled ms) name t → Counts l t → Counts l (.object ms)

theorem ReadsItems.exists_value {ts : List Tree} {vs : List Json} {t : Tree}
    (h : ReadsItems ts vs) (ht : t ∈ ts) : ∃ v ∈ vs, Reads t v := by
  induction ts generalizing vs with
  | nil => cases ht
  | cons u ts ih =>
    cases h with
    | @cons _ w _ vs hu hts =>
      rcases List.mem_cons.mp ht with rfl | ht
      · exact ⟨w, List.mem_cons_self, hu⟩
      · obtain ⟨v, hv, hr⟩ := ih hts ht
        exact ⟨v, List.mem_cons_of_mem w hv, hr⟩

theorem ReadsItems.exists_tree {ts : List Tree} {vs : List Json} {v : Json}
    (h : ReadsItems ts vs) (hv : v ∈ vs) : ∃ t ∈ ts, Reads t v := by
  induction vs generalizing ts with
  | nil => cases hv
  | cons w vs ih =>
    cases h with
    | @cons u _ ts _ hu hts =>
      rcases List.mem_cons.mp hv with rfl | hv
      · exact ⟨u, List.mem_cons_self, hu⟩
      · obtain ⟨t, ht, hr⟩ := ih hts hv
        exact ⟨t, List.mem_cons_of_mem u ht, hr⟩

/-- Members have the names that they spell, in the same places. -/
theorem ReadsMembers.keys {ms : List (List Piece × Tree)} {es : List (String × Json)}
    (h : ReadsMembers ms es) :
    (spelled ms).map Prod.fst = es.map fun e => some e.1.toList := by
  induction ms generalizing es with
  | nil =>
    cases h
    rfl
  | cons m ms ih =>
    cases h with
    | cons hname _ hms =>
      rw [spelled_cons, List.map_cons, List.map_cons, ih hms, hname, String.toList_ofList]

/-- A name comes again in the text if it comes again among the members that are read. -/
theorem ReadsMembers.absent_iff {ms : List (List Piece × Tree)} {es : List (String × Json)}
    (h : ReadsMembers ms es) (k : String) :
    (∀ m ∈ spelled ms, m.1 ≠ some k.toList) ↔ ∀ e ∈ es, e.1 ≠ k := by
  have hms : (∀ m ∈ spelled ms, m.1 ≠ some k.toList) ↔
      ∀ name ∈ (spelled ms).map Prod.fst, name ≠ some k.toList := by
    rw [List.forall_mem_map]
  rw [hms, h.keys, List.forall_mem_map]
  simp only [ne_eq, Option.some.injEq, String.toList_inj]

theorem ReadsMembers.exists_value {ms : List (List Piece × Tree)} {es : List (String × Json)}
    {name : Option (List Char)} {t : Tree} (h : ReadsMembers ms es)
    (ht : Table.IsLast (spelled ms) name t) : ∃ k v, Table.IsLast es k v ∧ Reads t v := by
  induction ms generalizing es with
  | nil => exact absurd ht Table.not_isLast_nil
  | cons m ms ih =>
    cases h with
    | @cons pieces cs u w _ es hname hu hms =>
      rw [spelled_cons, hname, ← String.toList_ofList (l := cs)] at ht
      rcases Table.isLast_cons.mp ht with ⟨rfl, rfl, habsent⟩ | ht
      · exact ⟨_, w, Table.isLast_cons.mpr (.inl ⟨rfl, rfl, (hms.absent_iff _).mp habsent⟩), hu⟩
      · obtain ⟨k, v, hv, hr⟩ := ih hms ht
        exact ⟨k, v, Table.isLast_cons.mpr (.inr hv), hr⟩

theorem ReadsMembers.exists_tree {ms : List (List Piece × Tree)} {es : List (String × Json)}
    {k : String} {v : Json} (h : ReadsMembers ms es) (hv : Table.IsLast es k v) :
    ∃ t, Table.IsLast (spelled ms) (some k.toList) t ∧ Reads t v := by
  induction es generalizing ms with
  | nil => exact absurd hv Table.not_isLast_nil
  | cons e es ih =>
    cases h with
    | @cons pieces cs u w ms _ hname hu hms =>
      rw [spelled_cons, hname]
      rcases Table.isLast_cons.mp hv with ⟨rfl, rfl, habsent⟩ | hv
      · refine ⟨u, Table.isLast_cons.mpr (.inl ⟨?_, rfl, (hms.absent_iff _).mpr habsent⟩), hu⟩
        exact congrArg some String.toList_ofList.symm
      · obtain ⟨t, ht, hr⟩ := ih hms hv
        exact ⟨t, Table.isLast_cons.mpr (.inr ht), hr⟩

theorem Literal.isWhole_of_pos {l : Literal} {z : Int} (h : l.integer? = some z) (hpos : 0 < z)
    (hle : z ≤ maxNat) : l.IsWhole z :=
  ⟨h, le_trans (by decide) hpos.le, hle, fun hzero => absurd hzero hpos.ne'⟩

theorem Tree.Counts.contains {t : Tree} {l : Literal} {n : Int} {v : Json} (h : t.Counts l)
    (hv : Reads t v) (hn : l.IsWhole n) : v.Contains n := by
  induction h generalizing v with
  | number =>
    cases hv with
    | number hl =>
      cases hl with
      | int hz =>
        cases Option.some.inj (hz.1.symm.trans hn.1)
        exact .int
      | float x hnot => exact absurd hn (hnot n)
  | item ht _ ih =>
    cases hv with
    | array hts =>
      obtain ⟨v, hmem, hr⟩ := hts.exists_value ht
      exact .item hmem (ih hr)
  | member ht _ ih =>
    cases hv with
    | object hms =>
      obtain ⟨k, v, hlast, hr⟩ := hms.exists_value ht
      exact .member ((Table.mem_ofList _ k v).mpr hlast) (ih hr)

theorem Contains.exists_literal {v : Json} {n : Int} {t : Tree} (h : v.Contains n)
    (ht : Reads t v) : ∃ l, t.Counts l ∧ l.IsWhole n := by
  induction h generalizing t with
  | int =>
    cases ht with
    | number hl =>
      cases hl with
      | int hz => exact ⟨_, .number, hz⟩
  | item hv _ ih =>
    cases ht with
    | number hl => cases hl
    | array hts =>
      obtain ⟨t, hmem, hr⟩ := hts.exists_tree hv
      obtain ⟨l, hl, hn⟩ := ih hr
      exact ⟨l, .item hmem hl, hn⟩
  | member hv _ ih =>
    cases ht with
    | number hl => cases hl
    | object hms =>
      obtain ⟨t, hlast, hr⟩ := hms.exists_tree ((Table.mem_ofList _ _ _).mp hv)
      obtain ⟨l, hl, hn⟩ := ih hr
      exact ⟨l, .member hlast hl, hn⟩

/-- **The integers of a value are the numbers of its text that count and are integers of 64
bits.** -/
theorem Reads.contains_iff {t : Tree} {v : Json} (h : Reads t v) (n : Int) :
    v.Contains n ↔ ∃ l, t.Counts l ∧ l.IsWhole n :=
  ⟨fun hn => hn.exists_literal h, fun ⟨_, hl, hn⟩ => hl.contains h hn⟩

end Json

open Json (Tree IsText Reads minInt maxInt maxNat)

namespace Request

/-- The inputs of a script are the members of the value that the payload spells; `null` has
none. -/
theorem value_of_prepare {r : Request} {c : Catalog} {schema : ActionSchema}
    {b : Script.Bindings} (h : r.prepare c = .ok (schema, b)) :
    ∃ v, Json.parse r.data = .ok v ∧ (v = .object b.request ∨ v = .null ∧ b.request = []) := by
  have hpayload := (prepare_eq_ok h).2.1
  unfold payload at hpayload
  split at hpayload
  case h_2 ms hparse =>
    exact ⟨.object ms, hparse, .inl (congrArg Json.object (Except.ok.inj hpayload))⟩
  case h_3 hparse => exact ⟨.null, hparse, .inr ⟨rfl, (Except.ok.inj hpayload).symm⟩⟩
  all_goals cases hpayload

/-- **The integers that a script gets for a payload** are the numbers of its text that count and
are integers of 64 bits. -/
theorem inputs_contain_iff {r : Request} {c : Catalog} {schema : ActionSchema}
    {b : Script.Bindings} {t : Tree} (ht : IsText t r.data) (h : r.prepare c = .ok (schema, b))
    (n : Int) : (Json.object b.request).Contains n ↔ ∃ l, t.Counts l ∧ l.IsWhole n := by
  obtain ⟨v, hparse, hv⟩ := value_of_prepare h
  rw [← (Json.parse_reads ht hparse).contains_iff]
  rcases hv with rfl | ⟨rfl, hnone⟩
  · exact Iff.rfl
  · rw [hnone]
    constructor
    · rintro ⟨⟩
      contradiction
    · rintro ⟨⟩

end Request

namespace Dispatcher

open Script

variable (d : Dispatcher) (files : Files) (c : Context) (ts : Tokens) (now : Nat) (s : Schedule)
  (r : Request)

/-- A script that is not run has no reply but an aborted one. -/
theorem aborted_of_not_run (h : d.scriptRun? files c ts now s r = none) :
    ∃ message, (d.dispatch files c ts now s r).value.reply = .aborted message := by
  obtain ⟨outcome, hreply⟩ := d.exists_replyFor files c ts now s r
  cases outcome with
  | error e => exact ⟨e.message, hreply⟩
  | ok data =>
    obtain ⟨schema, b, result, -, hrun, -⟩ := d.scriptRun_of_ok files c ts now s r (by
      rw [hreply]
      rfl)
    cases h.symm.trans hrun

/-- **A script is run on a payload only if no integer of its text lies between the greatest script
integer and the greatest unsigned one**, and such an integer is the only reason to refuse the
inputs. What a script that is run gets for an integer that no script integer can hold is a float,
so the integer is one that 64 bits cannot hold either. -/
theorem run_of_literals {t : Tree} (ht : IsText t r.data) :
    (∀ l z, t.Counts l → l.integer? = some z → maxInt < z → z ≤ maxNat →
      d.scriptRun? files c ts now s r = none ∧
        ∃ message, (d.dispatch files c ts now s r).value.reply = .aborted message) ∧
    (∀ schema b reason, r.prepare d.catalog = .ok (schema, b) →
      b.refusal? = some (.binding "request" reason) →
      ∃ l z, t.Counts l ∧ l.integer? = some z ∧ maxInt < z ∧ z ≤ maxNat ∧
        reason = "integer " ++ toString z ++ " is outside the script integer range " ++
          toString minInt ++ "..=" ++ toString maxInt) ∧
    (∀ schema b result, d.scriptRun? files c ts now s r = some (schema, b, result) →
      ∃ v, Reads t v ∧ (v = .object b.request ∨ v = .null ∧ b.request = []) ∧
        ∀ l z, t.Counts l → l.integer? = some z → z < minInt ∨ maxInt < z →
          (z < minInt ∨ maxNat < z) ∧ ∀ w, l.Reads w → ∃ x, w = .float x) := by
  -- inputs that were accepted contain no integer beyond the script range, while a literal up to the
  -- greatest unsigned integer is read as an integer of the inputs
  have hruns : ∀ schema b result, d.scriptRun? files c ts now s r = some (schema, b, result) →
      ∀ l z, t.Counts l → l.integer? = some z → maxInt < z → ¬ z ≤ maxNat := by
    intro schema b result hrun l z hl hz hlt hle
    obtain ⟨-, -, -, hprepared, -, haccepted, -⟩ := d.stages_of_scriptRun files c ts now s r hrun
    have hfits := (b.refusal?_eq_none_iff.mp haccepted) ("request", .object b.request)
      (by simp [Bindings.named])
    have hcontains := (r.inputs_contain_iff ht hprepared z).mpr
      ⟨l, hl, Json.Literal.isWhole_of_pos hz (lt_trans (by decide) hlt) hle⟩
    exact absurd (hfits z hcontains) hlt.not_ge
  refine ⟨fun l z hl hz hlt hle => ?_, fun schema b reason hprepared hrefusal => ?_,
    fun schema b result hrun => ?_⟩
  · have hnone : d.scriptRun? files c ts now s r = none := by
      refine Option.eq_none_iff_forall_ne_some.mpr fun ⟨schema, b, result⟩ hrun => ?_
      exact hruns schema b result hrun l z hl hz hlt hle
    exact ⟨hnone, d.aborted_of_not_run files c ts now s r hnone⟩
  · obtain ⟨before, name, v, after, n, hnamed, -, hn, hlt, hreason⟩ :=
      Bindings.refusal?_eq_some hrefusal
    cases hreason
    have hv : ("request", v) ∈ b.named := by simp [hnamed]
    have hvalue : v = .object b.request := by simpa [Bindings.named] using hv
    obtain ⟨l, hl, hwhole⟩ := (r.inputs_contain_iff ht hprepared n).mp (hvalue ▸ hn)
    exact ⟨l, n, hl, hwhole.1, hlt, hwhole.2.2.1, rfl⟩
  · obtain ⟨source, script, -, hprepared, -, -, -⟩ := d.stages_of_scriptRun files c ts now s r hrun
    obtain ⟨v, hparse, hv⟩ := Request.value_of_prepare hprepared
    refine ⟨v, Json.parse_reads ht hparse, hv, fun l z hl hz hout => ?_⟩
    -- what is left for such a literal is to be read as a float
    have hfar : z < minInt ∨ maxNat < z := by
      refine hout.imp_right fun hlt => ?_
      exact lt_of_not_ge (hruns schema b result hrun l z hl hz hlt)
    refine ⟨hfar, fun w hw => ?_⟩
    cases hw with
    | float x _ => exact ⟨x, rfl⟩
    | int hwhole =>
      cases Option.some.inj (hz.symm.trans hwhole.1)
      rcases hfar with hlt | hlt
      · exact absurd hwhole.2.1 hlt.not_ge
      · exact absurd hwhole.2.2.1 hlt.not_ge

/-- An object with one member, whose value is a whole number, as a text and as a tree. -/
def countText (digits : List Char) : String :=
  String.ofList (['\x7b', '"', 'n', '"', ':'] ++ digits ++ ['\x7d'])

def countTree (digits : List Char) : Tree :=
  .object [([.plain 'n'], .number ⟨false, digits, none, none⟩)]

theorem isText_countTree {digits : List Char} (hdigits : ∀ c ∈ digits, Json.Reader.isDigit c)
    (hne : digits ≠ []) (hleading : digits.head? ≠ some '0') :
    IsText (countTree digits) (countText digits) := by
  have hblank : Json.Blanks [] := nofun
  have hname : ∀ p ∈ [Json.Piece.plain 'n'], p.WellFormed := by
    simp [Json.Piece.WellFormed]
  have hnumber : (⟨false, digits, none, none⟩ : Json.Literal).WellFormed :=
    ⟨hdigits, hne, fun h => absurd h hleading, nofun, nofun⟩
  have hmember := Json.SpellsMember.intro hname hblank hblank (.number hnumber)
  have hspells := Json.Spells.object (.cons (.first hblank) hmember (.nil hblank))
  refine ⟨[], _, [], hblank, hspells, hblank, ?_⟩
  simp [countText, Json.Literal.text, Json.Literal.tail, Json.quoted, Json.Piece.text]

theorem counts_countTree (digits : List Char) :
    (countTree digits).Counts ⟨false, digits, none, none⟩ :=
  .member ⟨[], [], rfl, nofun⟩ .number

/-- The digits of `2 ^ 63`, which is refused, and of `2 ^ 64`, which is not. -/
theorem run_of_literals_counting :
    (probe.scriptRun? (probeFiles "reply.seen = 1;" []) (.ofToken 0) probeTokens 0 .prompt
        (probeRequest (countText "9223372036854775808".toList)) = none ∧
      ∃ message, (probe.dispatch (probeFiles "reply.seen = 1;" []) (.ofToken 0) probeTokens 0
        .prompt (probeRequest (countText "9223372036854775808".toList))).value.reply =
          .aborted message) ∧
    (probe.dispatch (probeFiles "reply.seen = 1;" []) (.ofToken 0) probeTokens 0 .prompt
      (probeRequest (countText "18446744073709551616".toList))).value.reply.status = .ok ∧
    ∃ (v : Json) (b : Bindings), Reads (countTree "18446744073709551616".toList) v ∧
      (v = .object b.request ∨ v = .null ∧ b.request = []) ∧
      ∀ w, Json.Literal.Reads ⟨false, "18446744073709551616".toList, none, none⟩ w →
        ∃ x, w = .float x := by
  have hok : (probe.dispatch (probeFiles "reply.seen = 1;" []) (.ofToken 0) probeTokens 0 .prompt
      (probeRequest (countText "18446744073709551616".toList))).value.reply.status = .ok := by
    decide +kernel
  have hrefused := (run_of_literals probe (probeFiles "reply.seen = 1;" []) (.ofToken 0)
    probeTokens 0 .prompt (probeRequest (countText "9223372036854775808".toList))
    (isText_countTree (by simp [Json.Reader.isDigit]) (by decide) (by decide))).1
  obtain ⟨-, -, hruns⟩ := run_of_literals probe (probeFiles "reply.seen = 1;" []) (.ofToken 0)
    probeTokens 0 .prompt (probeRequest (countText "18446744073709551616".toList))
    (isText_countTree (by simp [Json.Reader.isDigit]) (by decide) (by decide))
  refine ⟨hrefused _ 9223372036854775808 (counts_countTree _) (by decide) (by decide) (by decide),
    hok, ?_⟩
  obtain ⟨schema, b, result, -, hrun, -⟩ := scriptRun_of_ok _ _ _ _ _ _ _ hok
  obtain ⟨v, hv, hrequest, hfloat⟩ := hruns schema b result hrun
  exact ⟨v, b, hv, hrequest, (hfloat _ 18446744073709551616 (counts_countTree _) (by decide)
    (.inr (by decide))).2⟩

end Dispatcher

end ScriptedActions
