import ScriptedActions.Proofs.ReplyShape

/-!
# Writes to undeclared outputs

A write to an output that the schema does not declare is refused by the setter of the reply
object: it raises a fault that carries the number of the attempt. The name of the output becomes
the error of the run only if that fault ends the run, and a script has ways to see to it that it
does not. `try` and `catch` drop it; so does a sort whose order raises it, and a fault that is
raised while it is under way takes its place.

**Nothing else happens to it.** An attempt of a run is accounted for: its fault ended the run, or
was dropped (`Script.Accounted`). So a run in which no such fault was dropped fails as the schema
asks for, and the other runs may fail with something else, or not at all.
-/

set_option autoImplicit false

namespace ScriptedActions

namespace Script

/-- A fault is the refusal of the attempt with a number, perhaps on its way through calls. -/
def Fault.IsRefusal (n : Nat) (f : Fault) : Prop := f.root? = some (.raised (.undeclared n))

/-! ## The setter -/

/-- A computation does not get past a write to an output that is not declared: the write is
refused and remembered, unless the run has used up what it may or is told to stop before. -/
def Eval.IsRefused {α : Type} (x : Eval α) (field : String) (s : Surroundings) (m : Machine) :
    Prop :=
  ∃ f n, x.run s m = .error (.fault f) n ∧
    (f.isFatal ∧ n.attempts = m.attempts ∨
      f.IsRefusal m.attempts.size ∧ n.attempts = m.attempts.push field)

/-- A machine with a version of the reply object in focus that does not declare an output. -/
structure Machine.AtUndeclared (m : Machine) (field : String) : Prop where
  focused : ∃ n constant version, m.focus = some ⟨.reply n, constant⟩ ∧
    m.versions[n]? = some version ∧ version.contains field = false

variable {s : Surroundings} {m : Machine} {field : String}

/-- An operation is counted, which changes neither the focus nor a version, or ends the run. -/
theorem Eval.run_tick (p : Place) (hm : m.AtUndeclared field) :
    (∃ n, (Eval.tick p).run s m = .ok () n ∧ n.attempts = m.attempts ∧ n.AtUndeclared field) ∨
    ∃ f n, (Eval.tick p).run s m = .error (.fault f) n ∧ f.isFatal ∧ n.attempts = m.attempts := by
  obtain ⟨n, hr, hmn⟩ | ⟨f, n, hr, hmn, hf, -⟩ := Eval.counted_tick (s := s) (m := m) p
  · refine .inl ⟨n, hr, by rw [hmn], ⟨?_⟩⟩
    rw [hmn]
    exact hm.focused
  · exact .inr ⟨f, n, hr, hf, by rw [hmn]⟩

/-- What is refused after an operation was counted is refused. -/
theorem Eval.IsRefused.afterTick {α : Type} {x : Unit → Eval α} {p : Place}
    (hm : m.AtUndeclared field) (hx : ∀ n, n.AtUndeclared field → (x ()).IsRefused field s n) :
    (Eval.tick p >>= x).IsRefused field s m := by
  unfold IsRefused
  rw [Eval.run_bind]
  obtain ⟨n, hr, hattempts, hn⟩ | ⟨f, n, hr, hf, hattempts⟩ := Eval.run_tick (s := s) p hm
  · obtain ⟨f, o, hrun, h⟩ := hx n hn
    rw [hattempts] at h
    exact ⟨f, o, by rw [hr]; exact hrun, h⟩
  · exact ⟨f, n, by rw [hr], .inl ⟨hf, hattempts⟩⟩

/-- **The setter refuses every value for an undeclared output** that has a JSON form at all. -/
theorem indexerSet_isRefused {new : Value} {j : Json} (dot : Place)
    (hm : m.AtUndeclared field) (hj : new.toJson = .ok j) :
    (indexerSet (.text field) new dot).IsRefused field s m := by
  refine .afterTick hm fun n hn => ?_
  obtain ⟨k, constant, version, hfocus, hversion, hfield⟩ := hn.focused
  refine ⟨.here (.raised (.undeclared n.attempts.size)) dot,
    { n with attempts := n.attempts.push field }, ?_, .inr ⟨rfl, rfl⟩⟩
  have hrefused : (Eval.writeOutput k field j dot).run s n =
      .error (.fault (.here (.raised (.undeclared n.attempts.size)) dot))
        { n with attempts := n.attempts.push field } := by
    unfold Eval.writeOutput
    simp only [hversion, ReplyObject.set, hfield, Bool.false_eq_true, if_false]
  rw [Eval.run_bind, Eval.run_focused hfocus]
  simp only [hj]
  rw [Eval.run_bind, hrefused]

/-- A fault that was thrown, or that ends the run, is no missing indexer. -/
theorem run_orWithoutIndexer {α : Type} {x other : Eval α} {f : Fault} {n : Machine}
    (hr : x.run s m = .error (.fault f) n) (hf : f.isFatal ∨ ∃ v, f.root? = some (.raised v)) :
    (orWithoutIndexer x other).run s m = .error (.fault f) n := by
  have hmissing : missingIndexer? f = none := by
    unfold missingIndexer?
    split
    · rcases hf with hf | ⟨v, hf⟩ <;> cases hf
    · rfl
  unfold orWithoutIndexer
  rw [Eval.run_bind, Eval.run_catching, hr]
  simp only [hmissing]

theorem orWithoutIndexer_isRefused {x other : Eval Unit} (hx : x.IsRefused field s m) :
    (orWithoutIndexer x other).IsRefused field s m := by
  obtain ⟨f, n, hr, h⟩ := hx
  have hf : f.isFatal ∨ ∃ v, f.root? = some (.raised v) :=
    h.imp And.left fun hrefusal => ⟨_, hrefusal.1⟩
  exact ⟨f, n, run_orWithoutIndexer hr hf, h⟩

/-- A property is written with the setter. The one exception is the tag of a value, which is not
the script's: an integer for it is taken and forgotten. -/
theorem setProperty_isRefused {new : Value} {j : Json} (p dot : Place) (missing : Eval Unit)
    (htag : field = "tag" → ∀ i, new ≠ .int i) (hm : m.AtUndeclared field)
    (hj : new.toJson = .ok j) :
    (setProperty field new p dot missing).IsRefused field s m := by
  refine .afterTick hm fun n hn => ?_
  split
  case h_1 i => exact absurd rfl (htag rfl i)
  case h_2 => exact orWithoutIndexer_isRefused (indexerSet_isRefused dot hn hj)

/-! ## Runs -/

/-- The attempts of a run are accounted for: each was made to write an output that the reply
object does not declare, and its refusal is under way or was dropped. -/
structure Accounted (r : ReplyObject) (K : List Fault) (m : Machine) : Prop where
  grown : m.GrownFrom r
  undeclared : ∀ f ∈ m.attempts, r.contains f = false
  refused : ∀ n < m.attempts.size, ∃ f, (f ∈ K ∨ f ∈ m.dropped) ∧ f.IsRefusal n

namespace Accounted

variable {r : ReplyObject} {K K' : List Fault} {n : Machine} {f g : Fault}

/-- The refusals may be found elsewhere, as long as each of them is found. -/
theorem refound (h : Accounted r K m)
    (hK : ∀ f i, f ∈ K → f.IsRefusal i → ∃ g, (g ∈ K' ∨ g ∈ m.dropped) ∧ g.IsRefusal i) :
    Accounted r K' m := by
  refine ⟨h.grown, h.undeclared, fun i hi => ?_⟩
  obtain ⟨f, hf | hf, hi⟩ := h.refused i hi
  · exact hK f i hf hi
  · exact ⟨f, .inr hf, hi⟩

theorem drop (h : Accounted r (f :: K) m) :
    Accounted r K { m with dropped := m.dropped.push f } := by
  refine ⟨⟨h.grown.first, h.grown.size, h.grown.made⟩, h.undeclared, fun i hlt => ?_⟩
  obtain ⟨g, hg | hg, hi⟩ := h.refused i hlt
  · rcases List.mem_cons.mp hg with rfl | hg
    · exact ⟨g, .inr Array.mem_push_self, hi⟩
    · exact ⟨g, .inl hg, hi⟩
  · exact ⟨g, .inr (Array.mem_push_of_mem f hg), hi⟩

/-- A version declares what the first one does. -/
theorem contains_version {k : Nat} {version : ReplyObject} (h : m.GrownFrom r)
    (hv : m.versions[k]? = some version) (field : String) :
    version.contains field = r.contains field := by
  have hkeys : version.data.keys = r.data.keys := (h.keeps hv).1
  rw [Bool.eq_iff_iff]
  exact (Table.contains_iff_mem_keys version.data field).trans
    (hkeys ▸ (Table.contains_iff_mem_keys r.data field).symm)

theorem refuse {k : Nat} {value : Json} {version : ReplyObject} {e : ReplyError} (p : Place)
    (hv : m.versions[k]? = some version) (hset : version.set field value = .error e)
    (h : Accounted r K m) :
    Accounted r (.here (.raised (.undeclared m.attempts.size)) p :: K)
      { m with attempts := m.attempts.push field } := by
  refine ⟨⟨h.grown.first, h.grown.size, h.grown.made⟩, fun f hf => ?_, fun i hi => ?_⟩
  · rcases Array.mem_push.mp hf with hf | rfl
    · exact h.undeclared f hf
    · rw [← contains_version h.grown hv f]
      unfold ReplyObject.set at hset
      split at hset
      · cases hset
      · exact eq_false_of_ne_true ‹_›
  · dsimp only at hi ⊢
    rw [Array.size_push] at hi
    rcases Nat.lt_succ_iff_lt_or_eq.mp hi with hi | rfl
    · obtain ⟨g, hg | hg, hi⟩ := h.refused i hi
      · exact ⟨g, .inl (.tail _ hg), hi⟩
      · exact ⟨g, .inr hg, hi⟩
    · exact ⟨_, .inl (.head K), rfl⟩

end Accounted

/-- The ledger of the attempts. -/
def Ledger.refusals (r : ReplyObject) : Ledger where
  Holds K m := Accounted r K m
  perm hp h := h.refound fun f i hf hi => ⟨f, .inl (hp.mem_iff.mp hf), hi⟩
  quiet hmn h := ⟨(Ledger.growth r).quiet (K := []) hmn h.grown, hmn.attempts ▸ h.undeclared,
    hmn.attempts ▸ hmn.dropped ▸ h.refused⟩
  raise _ h := h.refound fun f i hf hi => ⟨f, .inl (.tail _ hf), hi⟩
  rewrap hfg h := h.refound fun f i hf hi => by
    rcases List.mem_cons.mp hf with rfl | hf
    · exact ⟨_, .inl (.head _), hfg.trans hi⟩
    · exact ⟨f, .inl (.tail _ hf), hi⟩
  drop h := h.drop
  forget hf h := h.refound fun g i hg hi => by
    rcases List.mem_cons.mp hg with rfl | hg
    · obtain ⟨c, hc, hne, -⟩ := hf
      cases hc.symm.trans hi
      exact absurd rfl (hne i)
    · exact ⟨g, .inl hg, hi⟩
  write hn hset _ h := ⟨h.grown.push hn hset, h.undeclared, h.refused⟩
  refuse p hn hset h := h.refuse p hn hset
  halt p hstop h := by
    refine ⟨⟨h.grown.first, h.grown.size, h.grown.made⟩, h.undeclared, fun i hi => ?_⟩
    obtain ⟨g, hg | hg, hi⟩ := h.refused i hi
    · exact ⟨g, .inl (.tail _ hg), hi⟩
    · exact ⟨g, .inr hg, hi⟩

/-- **Every attempt of a run is accounted for at its end.** Its refusal ended the run or was
dropped. -/
theorem Engine.refused_execute (e : Engine) (script : CompiledScript) (b : Bindings)
    (stopsAt : Option Nat) (moduleText : Path → Option String) {n : Nat} {field : String}
    (hn : (leftBy (e.execute script b stopsAt moduleText)).attempts[n]? = some field) :
    b.reply.contains field = false ∧
    ((∃ f m, e.execute script b stopsAt moduleText = .error (.fault f) m ∧ f.IsRefusal n) ∨
      ∃ f ∈ (leftBy (e.execute script b stopsAt moduleText)).dropped, f.IsRefusal n) := by
  have h := (Ledger.refusals b.reply).execute e script b stopsAt moduleText
    ⟨b.grownFrom_machine stopsAt, by simp [Bindings.machine], by simp [Bindings.machine]⟩
  have hlt := (Array.getElem?_eq_some_iff.mp hn).1
  have hmem := Array.mem_of_getElem? hn
  cases hr : e.execute script b stopsAt moduleText with
  | ok u m =>
    rw [hr] at h hlt hmem
    obtain ⟨f, hf, hi⟩ := h.holds.refused n hlt
    exact ⟨h.holds.undeclared field hmem, .inr ⟨f, hf.resolve_left List.not_mem_nil, hi⟩⟩
  | error stop m =>
    rw [hr] at h hlt hmem
    cases stop with
    | jump j =>
      obtain ⟨f, hf, hi⟩ := h.holds.refused n hlt
      exact ⟨h.holds.undeclared field hmem, .inr ⟨f, hf.resolve_left List.not_mem_nil, hi⟩⟩
    | fault g =>
      refine ⟨h.holds.undeclared field hmem, ?_⟩
      obtain ⟨f, hf | hf, hi⟩ := h.holds.refused n hlt
      · obtain rfl := List.mem_singleton.mp hf
        exact .inl ⟨_, m, rfl, hi⟩
      · exact .inr ⟨f, hf, hi⟩

/-- A run fails with an undeclared output exactly if the refusal of an attempt ends it. -/
theorem Engine.verdict_eq_undeclaredOutput (result : EStateM.Result Stop Machine Unit)
    (field : String) :
    Engine.verdict result = .error (.undeclaredOutput field) ↔
      ∃ n f m, result = .error (.fault f) m ∧ f.IsRefusal n ∧ m.attempts[n]? = some field := by
  constructor
  · intro h
    unfold verdict at h
    split at h
    case h_1 f m =>
      unfold Machine.classify at h
      split at h
      · cases h
      case h_2 n hroot =>
        split at h
        case h_1 hn =>
          cases h
          exact ⟨n, f, m, rfl, hroot, hn⟩
        · cases h
      · cases h
    · cases h
    · cases h
  · rintro ⟨n, f, m, rfl, hf, hn⟩
    simp only [verdict, Machine.classify, show f.root? = _ from hf, hn]

end Script

namespace Dispatcher

open Script

variable (d : Dispatcher) (files : Files) (c : Context) (ts : Tokens) (now : Nat) (s : Schedule)
  (r : Request)

/-- **What becomes of the writes to undeclared outputs that a script attempts.** The setter refuses
each of them. Each refusal ended the run or was dropped, the run fails with the name of the output
exactly if a refusal ended it, and then the reply says so unless the dispatcher had to give up
before the script was done. -/
theorem undeclared_writes {schema : ActionSchema} {b : Bindings}
    {result : EStateM.Result Stop Machine Unit}
    (h : d.scriptRun? files c ts now s r = some (schema, b, result)) :
    (∀ sur m field new j dot, Machine.AtUndeclared m field → new.toJson = .ok j →
      (indexerSet (.text field) new dot).IsRefused field sur m ∧
      ((field = "tag" → ∀ i, new ≠ .int i) → ∀ p missing,
        (setProperty field new p dot missing).IsRefused field sur m)) ∧
    (∀ n field, (leftBy result).attempts[n]? = some field →
      field ∉ schema.outputNames ∧
      ((∃ f m, result = .error (.fault f) m ∧ f.IsRefusal n) ∨
        ∃ f ∈ (leftBy result).dropped, f.IsRefusal n)) ∧
    (∀ field, Engine.verdict result = .error (.undeclaredOutput field) ↔
      ∃ n f m, result = .error (.fault f) m ∧ f.IsRefusal n ∧ m.attempts[n]? = some field) ∧
    ∀ field, Engine.verdict result = .error (.undeclaredOutput field) →
      (d.dispatch files c ts now s r).value.reply =
        .aborted ("undeclared output item " ++ field) ∨
      ∃ ends, d.stopFor schema c ts now s = some ends ∧
        max now ends + s.notice <
          now + s.start + s.compile + s.run + (leftBy result).time + s.finish ∧
        (d.dispatch files c ts now s r).value.reply =
          .aborted (DispatchError.timeout (max now ends + s.notice - now)).message := by
  refine ⟨fun sur m field new j dot hm hj => ⟨indexerSet_isRefused dot hm hj,
    fun htag p missing => setProperty_isRefused p dot missing htag hm hj⟩, fun n field hn => ?_,
    Engine.verdict_eq_undeclaredOutput result, fun field hfield => ?_⟩
  · obtain ⟨source, script, -, -, -, -, rfl⟩ := d.stages_of_scriptRun files c ts now s r h
    obtain ⟨hundeclared, hrefusal⟩ := Engine.refused_execute _ _ _ _ _ hn
    refine ⟨fun hmem => ?_, hrefusal⟩
    rw [(d.schema_of_scriptRun files c ts now s r h).2] at hundeclared
    -- the keys of the reply object that a script is given are the outputs of its schema
    have hkeys : schema.reply.data.keys = schema.outputNames :=
      Table.keys_mapValues schema.outputs _
    have hcontains := (Table.contains_iff_mem_keys schema.reply.data field).mpr (hkeys ▸ hmem)
    exact Bool.false_ne_true (hundeclared.symm.trans hcontains)
  · obtain ⟨run, houtcome, hends, hreply⟩ := d.reply_of_scriptRun files c ts now s r h
    have hsettled : settled result = .error (.schemaViolation field) := by
      simp only [settled, hfield]
      rfl
    rw [hreply, ← hends]
    exact awaited_error (houtcome.trans hsettled)

/-- A script that catches the refusal of a write: the refusal was dropped, and the reply is OK. -/
theorem undeclared_writes_copying : ∃ schema b result,
    probe.scriptRun? (probeFiles copyingScript []) (.ofToken 0) probeTokens 0 .prompt
      (probeRequest "null") = some (schema, b, result) ∧
    (leftBy result).attempts[0]? = some "other" ∧ "other" ∉ schema.outputNames ∧
    (∃ f ∈ (leftBy result).dropped, f.IsRefusal 0) ∧
    (probe.dispatch (probeFiles copyingScript []) (.ofToken 0) probeTokens 0 .prompt
      (probeRequest "null")).value.reply.status = .ok := by
  have hattempts : ((probe.scriptRun? (probeFiles copyingScript []) (.ofToken 0) probeTokens 0
      .prompt (probeRequest "null")).bind fun p => (leftBy p.2.2).attempts[0]?) =
      some "other" := by decide +kernel
  have hok : (probe.dispatch (probeFiles copyingScript []) (.ofToken 0) probeTokens 0 .prompt
      (probeRequest "null")).value.reply.status = .ok := by decide +kernel
  obtain ⟨⟨schema, b, result⟩, h, hn⟩ := Option.bind_eq_some_iff.mp hattempts
  obtain ⟨-, hwrites, hverdict, hreply⟩ := undeclared_writes _ _ _ _ _ _ _ h
  obtain ⟨hmem, hrefusal⟩ := hwrites 0 "other" hn
  refine ⟨schema, b, result, h, hn, hmem, ?_, hok⟩
  rcases hrefusal with ⟨f, m, rfl, hf⟩ | hdropped
  · have hfails := (hverdict "other").mpr ⟨0, f, m, rfl, hf, hn⟩
    rcases hreply "other" hfails with haborted | ⟨ends, -, -, haborted⟩ <;>
      (rw [haborted] at hok; cases hok)
  · exact hdropped

end Dispatcher

end ScriptedActions
