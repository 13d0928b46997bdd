import ScriptedActions.Proofs.Failures
import ScriptedActions.Proofs.JsonForms

/-!
# Writes of values without a JSON form

Before a value is written to an output it is turned into JSON, and if it has no JSON form the write
is refused: a fault is thrown that names the output and says why, and no version of the reply object
is made. The machine stays as it was but for what checks count (`Machine.Counted`), also when the
variable that holds the reply object gets its value back on the way out.

**Only what has no JSON form is refused.** A float that is not finite has one, that of the unit, so
a write of a value with such a float goes well, and `null` is what the output then holds for it.
-/

set_option autoImplicit false

namespace ScriptedActions.Script

/-! ## Refused writes -/

/-- What checks count does not matter to the reply object. -/
theorem Machine.Counted.reply? {m n : Machine} (h : m.Counted n) : n.reply? = m.reply? := by
  rw [h]
  rfl

/-- A computation comes as far as a machine and ends there with the refusal of a value, and nothing
happens to the machine; or the run may not go on. -/
def Eval.IsRejected {α : Type} (x : Eval α) (message : String) (s : Surroundings)
    (m n : Machine) : Prop :=
  ∃ f o, x.run s m = .error (.fault f) o ∧ n.Counted o ∧
    (f.isFatal ∧ o.IsSpent s ∨ f.root? = some (.raised (.text message)))

@[simp] theorem Fault.isFatal_orAt (f : Fault) (p : Place) : (f.orAt p).isFatal = f.isFatal := by
  unfold orAt
  split
  · cases f <;> rfl
  · rfl

section

variable {α β : Type} {s : Surroundings} {m n o : Machine} {message : String}

namespace Eval.IsRejected

/-- What comes behind a refusal does not happen. -/
theorem bind {x : Eval α} (hx : x.IsRejected message s m n) (f : α → Eval β) :
    (x >>= f).IsRejected message s m n := by
  obtain ⟨g, o, hr, h⟩ := hx
  refine ⟨g, o, ?_, h⟩
  rw [run_bind, hr]

theorem after {x : Eval α} {f : α → Eval β} {a : α} (hx : x.run s m = .ok a o)
    (hf : (f a).IsRejected message s o n) : (x >>= f).IsRejected message s m n := by
  obtain ⟨g, k, hr, h⟩ := hf
  refine ⟨g, k, ?_, h⟩
  rw [run_bind, hx]
  exact hr

theorem afterTick {p : Place} {f : Unit → Eval β}
    (hf : ∀ n, m.Counted n → (f ()).IsRejected message s n n) :
    (Eval.tick p >>= f).IsRejected message s m m := by
  obtain ⟨n, hr, hmn⟩ | ⟨g, n, hr, hmn, hg⟩ := Eval.counted_tick (s := s) (m := m) p
  · obtain ⟨g, o, hfr, hno, h⟩ := hf n hmn
    exact after hr ⟨g, o, hfr, hmn.trans hno, h⟩
  · exact bind ⟨g, n, hr, hmn, .inl hg⟩ f

theorem orAt {x : Eval α} (p : Place) (hx : x.IsRejected message s m n) :
    (x.orAt p).IsRejected message s m n := by
  obtain ⟨f, o, hr, hno, hf⟩ := hx
  refine ⟨f.orAt p, o, ?_, hno, ?_⟩
  · unfold Eval.orAt
    rw [run_mapFault, hr]
  · rw [Fault.isFatal_orAt, Fault.root?_orAt]
    exact hf

/-- A refusal is no missing indexer. -/
theorem orWithoutIndexer {x other : Eval Unit} (hx : x.IsRejected message s m n) :
    (orWithoutIndexer x other).IsRejected message s m n := by
  obtain ⟨f, o, hr, h⟩ := hx
  have hf : f.isFatal ∨ ∃ v, f.root? = some (.raised v) :=
    h.2.imp And.left fun hroot => ⟨_, hroot⟩
  exact ⟨f, o, run_orWithoutIndexer hr hf, h⟩

end Eval.IsRejected

end

/-! ## The setter -/

section Setter

variable {s : Surroundings} {m : Machine} {version : Nat} {constant : Bool} {field reason : String}
  {new : Value}

/-- The wording of a refusal. -/
def invalidValue (field reason : String) : String := ReplyError.message (.invalidValue field reason)

/-- **The setter refuses every value that has no JSON form**, for whatever output. -/
theorem indexerSet_isRejected (dot : Place) (hm : m.focus = some ⟨.reply version, constant⟩)
    (hnew : new.toJson = .error reason) :
    (indexerSet (.text field) new dot).IsRejected (invalidValue field reason) s m m := by
  refine .afterTick fun n hmn => ?_
  refine .after (Eval.run_focused (hmn.focus.trans hm)) ?_
  simp only [hnew]
  exact ⟨_, n, rfl, .refl n, .inr rfl⟩

theorem setProperty_isRejected (p dot : Place) (missing : Eval Unit)
    (hm : m.focus = some ⟨.reply version, constant⟩) (hnew : new.toJson = .error reason) :
    (setProperty field new p dot missing).IsRejected (invalidValue field reason) s m m := by
  refine .afterTick fun n hmn => ?_
  split
  case h_1 => cases hnew
  case h_2 => exact (indexerSet_isRejected dot (hmn.focus.trans hm) hnew).orWithoutIndexer

/-- A step of an access to an output. -/
inductive Step.LeadsTo (field : String) : Step → Prop
  | field (p dot : Place) (lenient : Bool) : LeadsTo field (.field field p dot lenient)
  | index (p dot : Place) (lenient : Bool) : LeadsTo field (.index (.text field) p dot lenient)

/-- An assignment to an output, as a property or by its index. -/
theorem walk_isRejected (go : Go) {step : Step} {a : Assignment} (hstep : step.LeadsTo field)
    (ha : a.op = none) (hm : m.focus = some ⟨.reply version, constant⟩)
    (hvalue : a.value.toJson = .error reason) :
    (walk go [step] (some a)).IsRejected (invalidValue field reason) s m m := by
  have hassigned (old : Eval (Option Value)) : assigned a old = pure a.value := by
    unfold assigned
    rw [ha]
  unfold walk
  refine .after (Eval.run_focused hm) ?_
  simp only [Value.isUnit, Bool.and_false, Bool.false_eq_true, if_false]
  cases hstep with
  | field p dot lenient =>
    refine .after (a := a.value) (o := m) (by rw [hassigned]; rfl) ?_
    exact (setProperty_isRejected p dot _ hm hvalue).bind _
  | index p dot lenient =>
    refine .afterTick fun n hmn => ?_
    refine .after (a := a.value) (o := n) (by rw [hassigned]; rfl) ?_
    exact (indexerSet_isRejected dot (hmn.focus.trans hm) hvalue).bind _

end Setter

/-! ## Assignments -/

/-- What a value stands for. -/
def Machine.contents (m : Machine) : Value → Value
  | .shared c => m.cells[c]?.getD .unit
  | v => v

section Assignment

variable {s : Surroundings} {m n : Machine} {version i : Nat} {x : Variable}

theorem Eval.run_contents (v : Value) : (Eval.contents v).run s m = .ok (m.contents v) m := by
  cases v <;> rfl

/-- The variable that holds a reply object gets it back. -/
theorem Eval.run_assign_same (hx : m.scope[i]? = some x)
    (hheld : m.contents x.value = .reply version) :
    (Eval.assign i (.reply version)).run s m = .ok () m := by
  have hat : (Eval.variableAt? i).run s m = .ok (some x) m := by
    rw [← hx]
    rfl
  unfold Eval.assign
  rw [Eval.run_bind, hat]
  dsimp only
  split
  case h_1 c heq =>
    -- the cell that the variable shares holds the reply object
    cases heq
    have hcell : m.cells[c]? = some (.reply version) := by
      have hget : m.cells[c]?.getD .unit = .reply version := hheld
      cases hc : m.cells[c]? with
      | none =>
        rw [hc] at hget
        cases hget
      | some w =>
        rw [hc] at hget
        exact congrArg some hget
    obtain ⟨hlt, hc⟩ := Array.getElem?_eq_some_iff.mp hcell
    have hset : m.cells.set! c (.reply version) = m.cells := by
      rw [Array.set!_eq_setIfInBounds, Array.setIfInBounds_def, dif_pos hlt, ← hc,
        Array.set_getElem_self]
    show EStateM.Result.ok () { m with cells := m.cells.set! c (.reply version) } = _
    rw [hset]
  case h_2 hshared =>
    have hvalue : x.value = .reply version := by
      obtain ⟨name, constant, offered, value⟩ := x
      cases value with
      | shared c => exact absurd rfl (hshared name constant offered c)
      | _ => exact hheld
    have hmodify : (m.scope.modify i fun x => { x with value := .reply version }) = m.scope := by
      refine Array.ext_getElem? fun j => ?_
      rw [Array.getElem?_modify]
      split
      case isTrue h =>
        rw [← h, hx, ← hvalue]
        rfl
      case isFalse => rfl
    show EStateM.Result.ok () { m with scope := m.scope.modify i _ } = _
    rw [hmodify]

/-- What is refused about a variable leaves the variable as it is. -/
theorem Eval.aboutVariable_isRejected {α : Type} {y : Eval α} {message : String}
    (hx : m.scope[i]? = some x) (hheld : m.contents x.value = .reply version)
    (hy : ∀ n, n.focus = some ⟨.reply version, x.constant⟩ → y.IsRejected message s n n) :
    (Eval.aboutVariable i y).IsRejected message s m m := by
  have hat : (Eval.variableAt? i).run s m = .ok (some x) m := by
    rw [← hx]
    rfl
  refine .after hat (.after (Eval.run_contents x.value) ?_)
  rw [hheld]
  -- the machine on which the refusal happens, with the variable in focus
  let t : Option Target := some ⟨.reply version, x.constant⟩
  let c : Closing := .focus m.focus (.slot i)
  obtain ⟨f, n, hr, hn, hf⟩ := hy { m with focus := t, pending := c :: m.pending } rfl
  let o : Machine := { m with operations := n.operations, time := n.time, halts := n.halts }
  have hclose : (Eval.close c).run s { n with pending := m.pending } = .ok () o := by
    rw [hn]
    exact Eval.run_assign_same hx hheld
  have hspent (h : n.IsSpent s) : o.IsSpent s := by
    rw [hn] at h
    exact h
  refine ⟨f, o, ?_, rfl, hf.imp_left (And.imp_right hspent)⟩
  have hfocus : (Eval.exchangeFocus t).run s m = .ok m.focus { m with focus := t } := rfl
  unfold Eval.about
  rw [Eval.run_bind, hfocus]
  dsimp only
  rw [Eval.run_closing, hr]
  dsimp only
  rw [hclose]

/-- An access begins at a reply object that may be changed: at the variable that holds it, or at
what a method is about. -/
inductive Machine.HoldsReply (m : Machine) (version : Nat) : Expr → Prop
  | var {name : String} {i : Nat} {x : Variable} (p : Place) :
    Eval.indexOf m.scope name m.scope.size = some i → m.scope[i]? = some x → x.constant = false →
    m.contents x.value = .reply version → HoldsReply m version (.var name p)
  | this (p : Place) : m.focus = some ⟨.reply version, false⟩ → HoldsReply m version (.this p)

/-- An access that leads from a reply object to an output, and what is assigned there. -/
theorem evalChain_isRejected (go : Go) {root : Expr} {links : List Link} {step : Step}
    {a : Assignment} {field reason : String} (hlinks : (evalLinks go links).run s m = .ok [step] n)
    (hstep : step.LeadsTo field) (hroot : n.HoldsReply version root) (ha : a.op = none)
    (hvalue : a.value.toJson = .error reason) :
    (evalChain go root links (some a)).IsRejected (invalidValue field reason) s m n := by
  refine .orAt _ (.after hlinks ?_)
  cases hroot with
  | @var name i x p hi hx hconstant hheld =>
    refine .afterTick fun o hno => ?_
    have hfind : (Eval.find? name).run s o = .ok (some i) o := by
      rw [← hi, hno]
      rfl
    have hat : (Eval.variableAt? i).run s o = .ok (some x) o := by
      rw [← hx, hno]
      rfl
    refine .after hfind (.after hat ?_)
    simp only [Option.any, hconstant, Bool.false_and, Bool.false_eq_true, if_false]
    have hxo : o.scope[i]? = some x := by
      rw [hno]
      exact hx
    have hheldo : o.contents x.value = .reply version := by
      rw [hno]
      exact hheld
    exact .bind (Eval.aboutVariable_isRejected hxo hheldo fun k hk =>
      walk_isRejected go hstep ha hk hvalue) _
  | this p hfocus =>
    refine .afterTick fun o hno => ?_
    have hfocused : Eval.focus?.run s o = .ok (some ⟨.reply version, false⟩) o := by
      rw [← hfocus, hno]
      rfl
    refine .after hfocused ?_
    simp only [Bool.false_and, Bool.false_eq_true, if_false]
    exact .bind (walk_isRejected go hstep ha (hno.focus.trans hfocus) hvalue) _

/-- **A statement that assigns a value without a JSON form to an output is refused.** Nothing has
happened then but what the value and the indices of the statement took. -/
theorem evalStmt_isRejected (go : Go) {root value : Expr} {links : List Link} {step : Step}
    {v : Value} {o : Machine} {field reason : String} {p : Place}
    (hvalue : (Eval.tick p >>= fun _ => evalArg go value).run s m = .ok v o)
    (hlinks : (evalLinks go links).run s o = .ok [step] n)
    (hstep : step.LeadsTo field) (hroot : n.HoldsReply version root)
    (hv : v.toJson = .error reason) :
    (evalStmt go (.assign none (.chain root links) value p)).IsRejected (invalidValue field reason)
      s m n := by
  have hassign : ∃ name, evalStmt go (.assign none (.chain root links) value p) =
      Eval.tick p >>= fun _ => evalArg go value >>= fun v =>
        evalChain go root links (some ⟨none, v, p, name, root.place⟩) := ⟨_, rfl⟩
  obtain ⟨name, hassign⟩ := hassign
  rw [hassign]
  rw [Eval.run_bind] at hvalue
  cases htick : (Eval.tick p).run s m with
  | error stop k =>
    rw [htick] at hvalue
    cases hvalue
  | ok u k =>
    rw [htick] at hvalue
    exact .after htick (.after hvalue (evalChain_isRejected go hlinks hstep hroot rfl hv))

end Assignment

/-! ## Reports -/

/-- A text begins with another one. -/
def BeginsWith (start text : String) : Prop := ∃ rest, text = start ++ rest

namespace BeginsWith

variable {start text : String}

theorem refl (text : String) : BeginsWith text text := ⟨"", String.append_empty.symm⟩

theorem append (h : BeginsWith start text) (more : String) : BeginsWith start (text ++ more) := by
  obtain ⟨rest, rfl⟩ := h
  exact ⟨rest ++ more, String.append_assoc⟩

theorem suffix (h : BeginsWith start text) (p : Place) : BeginsWith start (p.suffix text) := by
  unfold Place.suffix
  split
  · exact h
  · exact ((h.append _).append _).append _

end BeginsWith

theorem Cause.message_raised_text {text : String} (h : text ≠ "") :
    (Cause.raised (.text text)).message = "Runtime error: " ++ text := by
  unfold message
  dsimp only
  split
  case h_1 heq => cases heq
  case h_2 heq => exact absurd (Value.text.inj heq) h
  case h_3 => rfl

/-- The report of a thrown text begins with the text, however deep in calls and modules it was
thrown. -/
theorem Fault.messageFrom_of_raised {text : String} (htext : text ≠ "") {f : Fault}
    (h : f.root? = some (.raised (.text text))) (source : String) :
    BeginsWith ("Runtime error: " ++ text) (f.messageFrom source) := by
  induction f generalizing source with
  | here c p =>
    cases h
    unfold messageFrom
    rw [Cause.message_raised_text htext]
    exact ((BeginsWith.refl _).append _).suffix p
  | terminated p => cases h
  | inCall function module inner p ih =>
    unfold messageFrom
    exact ((((ih h module).append _).append _).append _).suffix p
  | inModule path inner p ih =>
    unfold messageFrom
    exact ((ih h "").append _).suffix p

theorem invalidValue_ne_empty (field reason : String) : invalidValue field reason ≠ "" := by
  unfold invalidValue ReplyError.message
  simp

/-! ## The refusal of values -/

namespace Engine

variable (e : Engine) (script : CompiledScript) (b : Bindings) (stopsAt : Option Nat)
  (moduleText : Path → Option String)

/-- A refusal that ends a run is an error of the script, and the report names the output and says
what is wrong with the value. -/
theorem outcome_of_invalid {f : Fault} {m : Machine} {field reason : String}
    (hb : b.refusal? = none) (hend : e.execute script b stopsAt moduleText = .error (.fault f) m)
    (hf : f.root? = some (.raised (.text (invalidValue field reason)))) :
    ∃ report, (e.run script b stopsAt moduleText).outcome = .error (.runtime report) ∧
      BeginsWith ("Runtime error: " ++ invalidValue field reason) report := by
  refine ⟨f.message, ?_, Fault.messageFrom_of_raised (invalidValue_ne_empty field reason) hf ""⟩
  rw [e.run_of_accepted script b stopsAt moduleText hb]
  show verdict (e.execute script b stopsAt moduleText) = _
  rw [hend]
  exact congrArg Except.error (classify_of_root hf nofun m)

/-- **What has no JSON form is refused, and nothing else.** Let something be in a value that JSON
has nothing for, other than a float. Then the value is written to no output: neither by the setter
nor by a statement, which ends with a fault that names the output and leaves the reply as it was,
and if that fault ends the run, the run fails with a report that begins with what the fault says.

All other values are written, and what is written is the value with `null` in the place of each
float that is not finite. -/
theorem invalid_values :
    (∀ v w unfit, Value.Reaches v w → w.unfit? = some unfit →
      ∃ reason, v.toJson = .error reason ∧ ∀ field s version,
        (∀ m constant p dot missing, m.focus = some ⟨.reply version, constant⟩ →
          (indexerSet (.text field) v dot).IsRejected (invalidValue field reason) s m m ∧
          (setProperty field v p dot missing).IsRejected (invalidValue field reason) s m m) ∧
        ∀ go root links value p step m n o,
          (Eval.tick p >>= fun _ => evalArg go value).run s m = .ok v o →
          (evalLinks go links).run s o = .ok [step] n → step.LeadsTo field →
          n.HoldsReply version root →
          (evalStmt go (.assign none (.chain root links) value p)).IsRejected
            (invalidValue field reason) s m n) ∧
    (∀ m n, Machine.Counted m n → n.reply? = m.reply?) ∧
    (∀ f m field reason, b.refusal? = none →
      e.execute script b stopsAt moduleText = .error (.fault f) m →
      f.root? = some (.raised (.text (invalidValue field reason))) →
      ∃ report, (e.run script b stopsAt moduleText).outcome = .error (.runtime report) ∧
        BeginsWith ("Runtime error: " ++ invalidValue field reason) report) ∧
    ∀ v, (∀ w unfit, Value.Reaches v w → w.unfit? ≠ some unfit) →
      ∃ j, v.toJson = .ok j ∧ v.blanked.toJson = .ok j ∧
        (v.blanked.IsPlain → Value.ofJson j = v.blanked) ∧
        ∀ s m n field dot, Machine.AtDeclared m field → (Eval.tick dot).run s m = .ok () n →
          ∃ o k constant version, (indexerSet (.text field) v dot).run s m = .ok () o ∧
            o.focus = some ⟨.reply k, constant⟩ ∧ o.versions[k]? = some version ∧
            version.get? field = some j := by
  refine ⟨fun v w unfit hw hunfit => ?_, fun m n h => h.reply?, fun f m field reason =>
    e.outcome_of_invalid script b stopsAt moduleText, fun v hfit => ?_⟩
  · obtain ⟨reason, hv⟩ := v.toJson_isError_iff.mpr ⟨w, unfit, hw, hunfit⟩
    refine ⟨reason, hv, fun field s version => ⟨fun m constant p dot missing hm => ?_, ?_⟩⟩
    · exact ⟨indexerSet_isRejected dot hm hv, setProperty_isRejected p dot missing hm hv⟩
    · intro go root links value p step m n o hvalue hlinks hstep hroot
      exact evalStmt_isRejected go hvalue hlinks hstep hroot hv
  · cases hv : v.toJson with
    | error reason =>
      obtain ⟨w, unfit, hw, hunfit⟩ := v.toJson_isError_iff.mp ⟨reason, hv⟩
      exact absurd hunfit (hfit w unfit hw)
    | ok j =>
      refine ⟨j, rfl, v.toJson_blanked.trans hv, fun hplain => ?_, ?_⟩
      · obtain ⟨i, hi, hback⟩ := Value.ofJson_toJson_blanked hplain
        cases hi.symm.trans hv
        exact hback
      · intro s m n field dot hm htick
        obtain ⟨o, k, constant, version, hset, -, -, -, hfocus, hversion, hget⟩ :=
          indexerSet_of_plain hm hv htick
        exact ⟨o, k, constant, version, hset, hfocus, hversion, hget⟩

/-- An array with the name of a function in it, as a script writes it. -/
def listedFunction : Expr := .literal (.array [.int 1, .fn "f"]) .none

/-- A script that writes such an array to an output. -/
def listingScript : CompiledScript := probeScript "reply.note = [1, Fn(\"f\")];"

/-- A function in an array is written by no statement, and a script that tries to fails with a
report that says so; an array with a float is written. -/
theorem invalid_values_listed :
    (∃ reason n, (evalStmt (interpret 2)
        (.assign none (.chain (.var "reply" .none) [.field "note" .none .none false])
          listedFunction .none)).IsRejected (invalidValue "note" reason)
        (Dispatcher.probe.engine.surroundings default fun _ => none)
        (probeBindings.machine none) n ∧
      n.reply? = some probeBindings.reply) ∧
    (∃ report,
      (Dispatcher.probe.engine.run listingScript probeBindings none fun _ => none).outcome =
        .error (.runtime report)) ∧
    ∀ x : Float, ∃ j, (Value.array #[.int 1, .float x]).toJson = .ok j := by
  have hthrown : thrown? (Dispatcher.probe.engine.execute listingScript probeBindings none
      fun _ => none) = some (invalidValue "note"
        "Output type incorrect: Fn (expecting serde_json::value::Value)") := by decide +kernel
  obtain ⟨hrefused, -, hreported, hwritten⟩ := Dispatcher.probe.engine.invalid_values listingScript
    probeBindings none fun _ => none
  refine ⟨?_, ?_, fun x => ?_⟩
  · obtain ⟨reason, -, h⟩ := hrefused (.array #[.int 1, .fn "f" none default []]) _ _
      (.item (List.mem_cons_of_mem _ List.mem_cons_self) (.self _)) rfl
    obtain ⟨-, hstmt⟩ := h "note"
      (Dispatcher.probe.engine.surroundings default fun _ => none) 0
    refine ⟨reason, _, hstmt (interpret 2) (.var "reply" .none) _ listedFunction .none _ _ _ _
      rfl rfl (.field .none .none false) (.var .none rfl rfl rfl rfl), rfl⟩
  · obtain ⟨f, m, hend, hroot⟩ := thrown?_eq_some hthrown
    obtain ⟨report, houtcome, -⟩ := hreported f m "note" _ rfl hend hroot
    exact ⟨report, houtcome⟩
  · obtain ⟨j, hj, -⟩ := hwritten (.array #[.int 1, .float x]) fun w unfit hw => by
      cases hw with
      | self => nofun
      | item hv hw =>
        rcases List.mem_cons.mp hv with rfl | hv
        · cases hw
          nofun
        · obtain rfl := List.mem_singleton.mp hv
          cases hw
          nofun
    exact ⟨j, hj⟩

end Engine

end ScriptedActions.Script
