import ScriptedActions.Proofs.Integers
import ScriptedActions.Proofs.JsonPrinting
import ScriptedActions.Proofs.UndeclaredWrites

/-!
# Values on their way into a script and out of it

JSON values and the values of scripts are two universes. A value of one becomes a value of the
other when a script is given its request, when it writes an output and when it reads one back.
Nothing is lost on these ways: a JSON value that was made the value of a script gives the same JSON
value again (`toJson_ofJson`), and what a script writes to a declared output it reads back
(`read_written`).

The one thing that has no counterpart is an integer which is too large for a script; a run is
refused if one of its values has such an integer, and for no other reason (`refused_iff`).
-/

set_option autoImplicit false

namespace ScriptedActions

/-- A JSON value as one can be read: its integers are 64-bit integers, signed or unsigned, and its
floats are numbers. -/
inductive Json.IsOrdinary : Json → Prop
  | null : IsOrdinary .null
  | bool (b : Bool) : IsOrdinary (.bool b)
  | int {n : Int} (h : Json.minInt ≤ n ∧ n ≤ Json.maxNat) : IsOrdinary (.int n)
  | float {x : Float} (h : (x.isNaN || x.isInf) = false) : IsOrdinary (.float x)
  | string (s : String) : IsOrdinary (.string s)
  | array {items : List Json} (h : ∀ v ∈ items, IsOrdinary v) : IsOrdinary (.array items)
  | object {members : List (String × Json)} (hnames : ∀ e ∈ members, e.1 ≠ Json.rawName)
    (h : ∀ e ∈ members, IsOrdinary e.2) : IsOrdinary (.object members)

namespace Script

open Json (Contains Fits IsOrdinary rawName minInt maxInt maxNat)

/-- A value that is made of what JSON can spell. -/
inductive Value.IsPlain : Value → Prop
  | unit : IsPlain .unit
  | bool (b : Bool) : IsPlain (.bool b)
  | int (n : Int64) : IsPlain (.int n)
  | float {x : Float} (h : (x.isNaN || x.isInf) = false) : IsPlain (.float x)
  | text (s : String) : IsPlain (.text s)
  | array {items : Array Value} (h : ∀ v ∈ items.toList, IsPlain v) : IsPlain (.array items)
  | map {entries : List (String × Value)} (hnames : ∀ e ∈ entries, e.1 ≠ rawName)
    (h : ∀ e ∈ entries, IsPlain e.2) : IsPlain (.map entries)

namespace Value

/-- An object map whose entries have names of their own stands for an object. -/
theorem spelled?_eq_none {entries : List (String × Value)} (h : ∀ e ∈ entries, e.1 ≠ rawName) :
    spelled? entries = none := by
  cases entries with
  | nil => rfl
  | cons e rest =>
    have hne : (e.1 == rawName) = false := beq_eq_false_iff_ne.mpr (h e List.mem_cons_self)
    simp only [spelled?, hne, Bool.false_eq_true, if_false]

/-! ## From JSON and back -/

theorem mem_ofJsonMembers {members : List (String × Json)} {e : String × Value}
    (h : e ∈ ofJsonMembers members) : ∃ m ∈ members, e = (m.1, ofJson m.2) := by
  induction members with
  | nil => cases h
  | cons m rest ih =>
    obtain ⟨k, v⟩ := m
    rcases List.mem_cons.mp h with rfl | h
    · exact ⟨(k, v), List.mem_cons_self, rfl⟩
    · obtain ⟨m, hm, he⟩ := ih h
      exact ⟨m, List.mem_cons_of_mem (k, v) hm, he⟩

theorem toJsonItems_ofJsonItems {items : List Json}
    (h : ∀ v ∈ items, (ofJson v).toJson = .ok v) :
    toJsonItems (ofJsonItems items) = .ok items := by
  induction items with
  | nil => rfl
  | cons v rest ih =>
    have hv := h v List.mem_cons_self
    have hrest := ih fun w hw => h w (List.mem_cons_of_mem v hw)
    simp only [ofJsonItems, toJsonItems, hv, hrest]
    rfl

theorem toJsonEntries_ofJsonMembers {members : List (String × Json)}
    (h : ∀ e ∈ members, (ofJson e.2).toJson = .ok e.2) :
    toJsonEntries (ofJsonMembers members) = .ok members := by
  induction members with
  | nil => rfl
  | cons e rest ih =>
    obtain ⟨k, v⟩ := e
    have hv : (ofJson v).toJson = .ok v := h (k, v) List.mem_cons_self
    have hrest := ih fun w hw => h w (List.mem_cons_of_mem (k, v) hw)
    simp only [ofJsonMembers, toJsonEntries, hv, hrest]
    rfl

/-- **A JSON value is the same again after it was a value of a script**, if no integer in it is too
large. -/
theorem toJson_ofJson {v : Json} (h : v.IsOrdinary) (hfits : v.Fits) :
    (ofJson v).toJson = .ok v := by
  induction h with
  | null => rfl
  | bool b => rfl
  | @int n h =>
    have hn : n ≤ maxInt := hfits n .int
    simp only [ofJson, if_pos (And.intro h.1 hn), toJson]
    have hmin : minInt = -2 ^ 63 := rfl
    have hmax : maxInt = 2 ^ 63 - 1 := rfl
    rw [Int64.toInt_ofInt_of_le (by omega) (by omega)]
  | float h => simp only [ofJson, toJson, h, Bool.false_eq_true, if_false]
  | string s => rfl
  | @array items _ ih =>
    have hitems := toJsonItems_ofJsonItems fun v hv => ih v hv fun n hn => hfits n (.item hv hn)
    simp only [ofJson, toJson, hitems]
    rfl
  | @object members hnames _ ih =>
    have hmembers := toJsonEntries_ofJsonMembers fun e he =>
      ih e he fun n hn => hfits n (.member he hn)
    have hnone : spelled? (ofJsonMembers members) = none := spelled?_eq_none fun e he => by
      obtain ⟨m, hm, rfl⟩ := mem_ofJsonMembers he
      exact hnames m hm
    simp only [ofJson, toJson, hnone, hmembers]
    rfl

/-! ## To JSON and back -/

theorem toJsonItems_ofPlain {items : List Value}
    (h : ∀ v ∈ items, ∃ j, v.toJson = .ok j ∧ ofJson j = v) :
    ∃ js, toJsonItems items = .ok js ∧ ofJsonItems js = items := by
  induction items with
  | nil => exact ⟨[], rfl, rfl⟩
  | cons v rest ih =>
    obtain ⟨j, hj, hv⟩ := h v List.mem_cons_self
    obtain ⟨js, hjs, hrest⟩ := ih fun w hw => h w (List.mem_cons_of_mem v hw)
    refine ⟨j :: js, ?_, ?_⟩
    · simp only [toJsonItems, hj, hjs]
      rfl
    · simp only [ofJsonItems, hv, hrest]

theorem toJsonEntries_ofPlain {entries : List (String × Value)}
    (h : ∀ e ∈ entries, ∃ j, e.2.toJson = .ok j ∧ ofJson j = e.2) :
    ∃ js, toJsonEntries entries = .ok js ∧ ofJsonMembers js = entries := by
  induction entries with
  | nil => exact ⟨[], rfl, rfl⟩
  | cons e rest ih =>
    obtain ⟨k, v⟩ := e
    obtain ⟨j, hj, hv⟩ := h (k, v) List.mem_cons_self
    obtain ⟨js, hjs, hrest⟩ := ih fun w hw => h w (List.mem_cons_of_mem (k, v) hw)
    refine ⟨(k, j) :: js, ?_, ?_⟩
    · simp only [toJsonEntries, hj, hjs]
      rfl
    · simp only [ofJsonMembers, hv, hrest]

/-- **A plain value has a JSON form**, of which it is the value. -/
theorem IsPlain.ofJson_toJson {v : Value} (h : v.IsPlain) :
    ∃ j, v.toJson = .ok j ∧ ofJson j = v := by
  induction h with
  | unit => exact ⟨.null, rfl, rfl⟩
  | bool b => exact ⟨.bool b, rfl, rfl⟩
  | int n =>
    have hmin : minInt ≤ n.toInt := Int64.le_toInt n
    have hmax : n.toInt ≤ maxInt := Int64.toInt_le n
    refine ⟨.int n.toInt, rfl, ?_⟩
    simp only [ofJson, if_pos (And.intro hmin hmax), Int64.ofInt_toInt]
  | @float x h => exact ⟨.float x, by simp only [toJson, h, Bool.false_eq_true, if_false], rfl⟩
  | text s => exact ⟨.string s, rfl, rfl⟩
  | @array items _ ih =>
    obtain ⟨items⟩ := items
    obtain ⟨js, hjs, hitems⟩ := toJsonItems_ofPlain ih
    refine ⟨.array js, ?_, ?_⟩
    · simp only [toJson, hjs]
      rfl
    · simp only [ofJson, hitems]
  | @map entries hnames _ ih =>
    obtain ⟨js, hjs, hentries⟩ := toJsonEntries_ofPlain ih
    refine ⟨.object js, ?_, ?_⟩
    · simp only [toJson, spelled?_eq_none hnames, hjs]
      rfl
    · simp only [ofJson, hentries]

end Value

/-! ## Writing and reading back -/

/-- A machine with a version of the reply object in focus that declares an output. -/
structure Machine.AtDeclared (m : Machine) (field : String) : Prop where
  focused : ∃ n constant version, m.focus = some ⟨.reply n, constant⟩ ∧
    m.versions[n]? = some version ∧ version.contains field = true

section Operations

variable {s : Surroundings} {m n o : Machine} {p q : Place} {field : String}

/-- Whether an operation is counted depends on the counts alone. -/
theorem Eval.tick_of_counts (h : (Eval.tick p).run s m = .ok () n)
    (hoperations : o.operations = m.operations) (htime : o.time = m.time)
    (hstopsAt : o.stopsAt = m.stopsAt) :
    (Eval.tick p).run s o =
      .ok () { o with operations := o.operations + 1, time := o.time + tickTime } := by
  unfold Eval.tick at h ⊢
  dsimp only at h ⊢
  rw [hoperations, htime, hstopsAt]
  split at h
  · cases h
  case isFalse hlimit =>
    split at h
    · cases h
    case isFalse hstop => rw [if_neg hlimit, if_neg hstop]

/-- A plain value is written to a declared output: the new version that is in focus then has its
JSON form there. -/
theorem indexerSet_of_plain {v : Value} {j : Json} (hm : m.AtDeclared field)
    (hj : v.toJson = .ok j) (htick : (Eval.tick p).run s m = .ok () n) :
    ∃ o k constant version, (indexerSet (.text field) v p).run s m = .ok () o ∧
      o.operations = n.operations ∧ o.time = n.time ∧ o.stopsAt = n.stopsAt ∧
      o.focus = some ⟨.reply k, constant⟩ ∧ o.versions[k]? = some version ∧
      version.get? field = some j := by
  obtain ⟨k, constant, version, hfocus, hversion, hfield⟩ := hm.focused
  obtain rfl := Eval.eq_of_tick htick
  unfold indexerSet
  rw [Eval.run_bind, htick]
  dsimp only
  rw [Eval.run_bind]
  simp only [Eval.focused, hfocus, Option.elim, hj]
  rw [Eval.run_bind]
  simp only [Eval.writeOutput, hversion, ReplyObject.set, hfield, if_true, Eval.refocus]
  refine ⟨_, m.versions.size, constant, _, rfl, rfl, rfl, rfl, rfl, Array.getElem?_push_size, ?_⟩
  exact version.data.get?_replace_self j hfield

/-- What an output holds is read as its value. -/
theorem indexerGet_of_get? {k : Nat} {constant : Bool} {version : ReplyObject} {j : Json}
    (hfocus : m.focus = some ⟨.reply k, constant⟩) (hversion : m.versions[k]? = some version)
    (hget : version.get? field = some j) (htick : (Eval.tick q).run s m = .ok () n) :
    (indexerGet (.text field) q).run s m = .ok (Value.ofJson j) n := by
  obtain rfl := Eval.eq_of_tick htick
  unfold indexerGet
  rw [Eval.run_bind, htick]
  dsimp only
  rw [Eval.run_bind]
  simp only [Eval.focused, hfocus, Option.elim]
  rw [Eval.run_bind]
  simp only [Eval.version, hversion, Option.getD_some, hget]
  rfl

/-- **What is written to a declared output is read back**, if the run has two operations left. -/
theorem read_written {v : Value} (hv : v.IsPlain) (hm : m.AtDeclared field)
    (hticks : (Eval.tick p >>= fun _ => Eval.tick q).run s m = .ok () n) :
    ∃ o, (indexerSet (.text field) v p >>= fun _ => indexerGet (.text field) q).run s m =
      .ok v o := by
  obtain ⟨j, hj, rfl⟩ := hv.ofJson_toJson
  rw [Eval.run_bind] at hticks ⊢
  cases hfirst : (Eval.tick p).run s m with
  | error stop m' =>
    rw [hfirst] at hticks
    cases hticks
  | ok u m' =>
    rw [hfirst] at hticks
    obtain ⟨o, k, constant, version, hset, hoperations, htime, hstopsAt, hfocus, hversion, hget⟩ :=
      indexerSet_of_plain hm hj hfirst
    have hsecond := Eval.tick_of_counts hticks hoperations htime hstopsAt
    rw [hset]
    exact ⟨_, indexerGet_of_get? hfocus hversion hget hsecond⟩

end Operations

/-! ## Refusals -/

namespace Engine

/-- A run that was begun does not end with a refusal of its values. -/
theorem verdict_ne_binding (result : EStateM.Result Stop Machine Unit) (name text : String) :
    verdict result ≠ .error (.binding name text) := by
  intro h
  unfold verdict at h
  split at h
  · unfold Machine.classify at h
    split at h
    · cases h
    · split at h <;> cases h
    · cases h
  · cases h
  · cases h

variable (e : Engine) (script : CompiledScript) (b : Bindings) (stopsAt : Option Nat)
  (moduleText : Path → Option String)

/-- A run is refused before it begins, for the first of its values that has an integer which is too
large. -/
theorem refused_of_binding {name text : String}
    (h : (e.run script b stopsAt moduleText).outcome = .error (.binding name text)) :
    e.run script b stopsAt moduleText = ⟨.error (.binding name text), script, [], 0⟩ ∧
    ∃ before v after n, b.named = before ++ (name, v) :: after ∧
      (∀ other ∈ before, other.2.Fits) ∧ v.Contains n ∧ maxInt < n := by
  cases hrefusal : b.refusal? with
  | none =>
    rw [e.run_of_accepted script b stopsAt moduleText hrefusal] at h
    exact absurd h (verdict_ne_binding _ name text)
  | some refused =>
    rw [e.run_of_refusal script b stopsAt moduleText hrefusal] at h ⊢
    cases h
    obtain ⟨before, _, v, after, n, hnamed, hbefore, hn, hlarge, hrefused⟩ :=
      Bindings.refusal?_eq_some hrefusal
    cases hrefused
    exact ⟨rfl, before, v, after, n, hnamed, hbefore, hn, hlarge⟩

/-- A run is refused if one of its values has an integer that is too large, and for no other
reason. -/
theorem refused_iff :
    (∃ name text, (e.run script b stopsAt moduleText).outcome = .error (.binding name text)) ↔
      ∃ entry ∈ b.named, ∃ n, entry.2.Contains n ∧ maxInt < n := by
  constructor
  · rintro ⟨name, text, h⟩
    obtain ⟨-, before, v, after, n, hnamed, -, hn, hlarge⟩ := e.refused_of_binding script b _ _ h
    exact ⟨(name, v), hnamed ▸ List.mem_append_cons_self, n, hn, hlarge⟩
  · rintro ⟨entry, hentry, n, hn, hlarge⟩
    cases hrefusal : b.refusal? with
    | none =>
      have hfits := b.refusal?_eq_none_iff.mp hrefusal entry hentry
      exact absurd hlarge (Int.not_lt.mpr (hfits n hn))
    | some refused =>
      obtain ⟨_, name, _, _, n, -, -, -, -, rfl⟩ := Bindings.refusal?_eq_some hrefusal
      rw [e.run_of_refusal script b stopsAt moduleText hrefusal]
      exact ⟨name, _, rfl⟩

/-- **Values are kept or refused.** A JSON value whose integers fit is the same again after it was a
value of a script; a plain value that is written to a declared output is read back as it was; and a
run is refused if and only if an integer in its reply, request or message does not fit, before
anything happens and with the name of the first value that has one. -/
theorem kept_or_refused :
    (∀ v : Json, v.IsOrdinary → v.Fits → (Value.ofJson v).toJson = .ok v) ∧
    (∀ v : Value, v.IsPlain → ∀ s m n field p q, Machine.AtDeclared m field →
      (Eval.tick p >>= fun _ => Eval.tick q).run s m = .ok () n →
      ∃ o, (indexerSet (.text field) v p >>= fun _ => indexerGet (.text field) q).run s m =
        .ok v o) ∧
    ((∃ name text, (e.run script b stopsAt moduleText).outcome = .error (.binding name text)) ↔
      ∃ entry ∈ b.named, ∃ n, entry.2.Contains n ∧ maxInt < n) ∧
    ∀ name text, (e.run script b stopsAt moduleText).outcome = .error (.binding name text) →
      e.run script b stopsAt moduleText = ⟨.error (.binding name text), script, [], 0⟩ ∧
      ∃ before v after n, b.named = before ++ (name, v) :: after ∧
        (∀ other ∈ before, other.2.Fits) ∧ v.Contains n ∧ maxInt < n := by
  refine ⟨fun v => Value.toJson_ofJson, ?_, e.refused_iff script b stopsAt moduleText,
    fun name text => e.refused_of_binding script b stopsAt moduleText⟩
  intro v hv s m n field p q hm hticks
  exact read_written hv hm hticks

/-- Bindings whose message is an integer that is too large. -/
def largeBindings : Bindings := ⟨.int (maxInt + 1), [], Dispatcher.probeSchema.reply⟩

/-- The machine of a run that looks at the reply object. -/
def lookingMachine : Machine :=
  { largeBindings.machine none with focus := some ⟨.reply 0, false⟩ }

/-- An object with an array comes back from a script, an object map is read back from an output, and
a run with a message that is too large is refused with the name of the message. -/
theorem kept_or_refused_large :
    (Value.ofJson (.object [("a", .int (-5)), ("b", .array [.null, .string "x"])])).toJson =
      .ok (.object [("a", .int (-5)), ("b", .array [.null, .string "x"])]) ∧
    (∃ o, (indexerSet (.text "note") (.map [("a", .array #[.unit, .int 5])]) .none >>= fun _ =>
        indexerGet (.text "note") .none).run
      (Dispatcher.probe.engine.surroundings default fun _ => none) lookingMachine =
        .ok (.map [("a", .array #[.unit, .int 5])]) o) ∧
    ∃ text, Dispatcher.probe.engine.run default largeBindings none (fun _ => none) =
      ⟨.error (.binding "rpc" text), default, [], 0⟩ := by
  obtain ⟨hjson, hplain, hrefused, hfirst⟩ :=
    Dispatcher.probe.engine.kept_or_refused default largeBindings none (fun _ => none)
  refine ⟨hjson _ ?_ ?_, hplain _ ?_ _ _ _ _ _ _ ?_ rfl, ?_⟩
  · have hitems : ∀ v ∈ [Json.null, .string "x"], v.IsOrdinary :=
      List.forall_mem_cons.mpr ⟨.null, List.forall_mem_singleton.mpr (.string "x")⟩
    refine .object (by decide) (List.forall_mem_cons.mpr ⟨.int (by decide), ?_⟩)
    exact List.forall_mem_singleton.mpr (.array hitems)
  · exact oversized_eq_none_iff.mp rfl
  · have hitems : ∀ v ∈ [Value.unit, .int 5], v.IsPlain :=
      List.forall_mem_cons.mpr ⟨.unit, List.forall_mem_singleton.mpr (.int 5)⟩
    exact .map (by decide) (List.forall_mem_singleton.mpr (.array hitems))
  · exact ⟨0, false, Dispatcher.probeSchema.reply, rfl, rfl, by decide⟩
  · obtain ⟨name, text, h⟩ := hrefused.mpr
      ⟨("rpc", .int (maxInt + 1)), by simp [Bindings.named, largeBindings], _, .int, by decide⟩
    have hrpc : (Dispatcher.probe.engine.run default largeBindings none fun _ => none).outcome =
        .error (.binding "rpc" _) := rfl
    cases h.symm.trans hrpc
    exact ⟨_, (hfirst "rpc" _ h).1⟩

end Engine

end Script

end ScriptedActions
