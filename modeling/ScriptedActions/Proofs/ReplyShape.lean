import ScriptedActions.Proofs.Dispatch
import ScriptedActions.Proofs.Table

/-!
# The shape of a reply

A script may copy the reply object, capture it, shadow it, keep it in an array, write to a copy
and assign the copy back. None of this matters for the outputs that a reply has: a script never
holds a reply object, only the number of a version of it, and a new version is made from an older
one by one successful write. So the versions of a run are a tree with the reply that the run was
given as its root, `Machine.GrownFrom`, and on the way from the root to a version the names of the
outputs stay and every value stays that was not written.

What the run gives back is one of the versions. Which one is up to the script: the number is
looked up in the variables at the end of the run.
-/

set_option autoImplicit false

namespace ScriptedActions

namespace ReplyObject

theorem keys_set {r new : ReplyObject} {field : String} {value : Json}
    (h : r.set field value = .ok new) : new.keys = r.keys := by
  unfold set at h
  split at h <;> cases h
  exact r.data.keys_replace field value

theorem get?_set_of_ne {r new : ReplyObject} {field other : String} {value : Json}
    (h : r.set field value = .ok new) (hne : other ≠ field) : new.get? other = r.get? other := by
  unfold set at h
  split at h <;> cases h
  exact r.data.get?_replace_of_ne value hne

end ReplyObject

namespace Script

namespace Machine

/-! ## The tree of versions -/

/-- The versions of a machine grew from a reply object, each later one by the write of its
number. -/
structure GrownFrom (r : ReplyObject) (m : Machine) : Prop where
  first : m.versions[0]? = some r
  size : m.versions.size = m.writes.size + 1
  made : ∀ k w, m.writes[k]? = some w → w.base ≤ k ∧
    ∃ old new, m.versions[w.base]? = some old ∧ old.set w.field w.value = .ok new ∧
      m.versions[k + 1]? = some new

/-- An output was written on the way to a version: by the write that made the version, or on the
way to the version that this write was made to. -/
inductive Wrote (m : Machine) : Nat → String → Prop
  | last {k : Nat} {w : Write} : m.writes[k]? = some w → Wrote m (k + 1) w.field
  | before {k : Nat} {w : Write} {f : String} :
    m.writes[k]? = some w → Wrote m w.base f → Wrote m (k + 1) f

namespace GrownFrom

variable {r : ReplyObject} {m : Machine}

/-- What stands in an array stays there when something is pushed. -/
theorem getElem?_push_of_some {α : Type} {xs : Array α} {x v : α} {i : Nat}
    (h : xs[i]? = some v) : (xs.push x)[i]? = some v := by
  have hi : i < xs.size := (Array.getElem?_eq_some_iff.mp h).1
  rw [Array.getElem?_push, if_neg (Nat.ne_of_lt hi)]
  exact h

/-- **A successful write lets the tree grow.** -/
theorem push (h : m.GrownFrom r) {n : Nat} {field : String} {value : Json}
    {old new : ReplyObject} (hold : m.versions[n]? = some old)
    (hset : old.set field value = .ok new) :
    GrownFrom r
      { m with versions := m.versions.push new, writes := m.writes.push ⟨n, field, value⟩ } := by
  have hn : n < m.versions.size := (Array.getElem?_eq_some_iff.mp hold).1
  constructor
  · exact getElem?_push_of_some h.first
  · simp only [Array.size_push, h.size]
  · intro k w hk
    dsimp only at hk ⊢
    rw [Array.getElem?_push] at hk
    split at hk
    case isTrue hlast =>
      -- the write that is made now
      cases hk
      have hle : n ≤ k := by
        rw [h.size] at hn
        omega
      refine ⟨hle, old, new, getElem?_push_of_some hold, hset, ?_⟩
      rw [hlast, ← h.size]
      exact Array.getElem?_push_size
    case isFalse =>
      obtain ⟨hle, old', new', hbase, hset', hmade⟩ := h.made k w hk
      exact ⟨hle, old', new', getElem?_push_of_some hbase, hset', getElem?_push_of_some hmade⟩

/-- **Every version has the names of the first one, and the values that were not written.** The
induction is on the number of the version: it was made from an earlier one. -/
theorem keeps (h : m.GrownFrom r) {n : Nat} {v : ReplyObject} (hv : m.versions[n]? = some v) :
    v.keys = r.keys ∧ ∀ f, ¬ m.Wrote n f → v.get? f = r.get? f := by
  induction n using Nat.strongRecOn generalizing v with
  | ind n ih =>
    cases n with
    | zero =>
      rw [h.first] at hv
      cases hv
      exact ⟨rfl, fun _ _ => rfl⟩
    | succ k =>
      have hk : k < m.writes.size := by
        have := (Array.getElem?_eq_some_iff.mp hv).1
        rw [h.size] at this
        omega
      obtain ⟨w, hw⟩ : ∃ w, m.writes[k]? = some w := ⟨_, Array.getElem?_eq_getElem hk⟩
      obtain ⟨hle, old, new, hbase, hset, hmade⟩ := h.made k w hw
      rw [hmade] at hv
      cases hv
      obtain ⟨hkeys, hvalues⟩ := ih w.base (by omega) hbase
      refine ⟨(ReplyObject.keys_set hset).trans hkeys, fun f hf => ?_⟩
      have hne : f ≠ w.field := by
        rintro rfl
        exact hf (.last hw)
      rw [ReplyObject.get?_set_of_ne hset hne]
      exact hvalues f fun hbefore => hf (.before hw hbefore)

end GrownFrom

end Machine

/-! ## Runs -/

/-- The ledger that knows of the tree of versions. Faults do not matter to it. -/
def Ledger.growth (r : ReplyObject) : Ledger where
  Holds _ m := m.GrownFrom r
  perm _ h := h
  quiet hmn h := ⟨hmn.versions ▸ h.first, hmn.versions ▸ hmn.writes ▸ h.size,
    hmn.versions ▸ hmn.writes ▸ h.made⟩
  raise _ h := h
  rewrap _ h := h
  drop h := ⟨h.first, h.size, h.made⟩
  forget _ h := h
  write hn hset _ h := h.push hn hset
  refuse _ _ _ h := ⟨h.first, h.size, h.made⟩
  halt _ _ h := ⟨h.first, h.size, h.made⟩

theorem Bindings.grownFrom_machine (b : Bindings) (stopsAt : Option Nat) :
    (b.machine stopsAt).GrownFrom b.reply :=
  ⟨rfl, rfl, fun _ _ h => by cases h⟩

/-- **Whatever a script does, the versions of the reply object grow from the one it was given.** -/
theorem Engine.grownFrom_execute (e : Engine) (script : CompiledScript) (b : Bindings)
    (stopsAt : Option Nat) (moduleText : Path → Option String) :
    (leftBy (e.execute script b stopsAt moduleText)).GrownFrom b.reply := by
  have h := (Ledger.growth b.reply).execute e script b stopsAt moduleText
    (b.grownFrom_machine stopsAt)
  cases hr : e.execute script b stopsAt moduleText with
  | ok u m =>
    rw [hr] at h
    exact h.holds
  | error stop m =>
    rw [hr] at h
    cases stop <;> exact h.holds

end Script

namespace Dispatcher

open Script

variable (d : Dispatcher) (files : Files) (c : Context) (ts : Tokens) (now : Nat) (s : Schedule)
  (r : Request)

/-- **A reply that is OK has the outputs of the schema that was looked up, no more and no fewer,**
and an output that the script did not write on the way to the version it left has its default. -/
theorem data_of_ok (h : (d.dispatch files c ts now s r).value.reply.status = .ok) :
    ∃ schema b result n,
      d.scriptRun? files c ts now s r = some (schema, b, result) ∧
      d.catalog.lookup r.agent r.action = some schema ∧
      (leftBy result).replyVersion? = some n ∧
      (d.dispatch files c ts now s r).value.reply.data.keys = schema.outputNames ∧
      ∀ f field, schema.outputs.get? f = some field → ¬ (leftBy result).Wrote n f →
        (d.dispatch files c ts now s r).value.reply.data.get? f = some field.default := by
  obtain ⟨schema, b, result, data, hran, hsettled, hdata⟩ := d.scriptRun_of_ok files c ts now s r h
  obtain ⟨reply, hreply, rfl⟩ := reply_of_settled hsettled
  obtain ⟨n, hn, hversion⟩ := Option.bind_eq_some_iff.mp hreply
  have hgrown : (leftBy result).GrownFrom b.reply := by
    obtain ⟨source, script, -, -, -, -, rfl⟩ := d.stages_of_scriptRun files c ts now s r hran
    exact Engine.grownFrom_execute ..
  obtain ⟨hkeys, hvalues⟩ := hgrown.keeps hversion
  obtain ⟨hlookup, hb⟩ := d.schema_of_scriptRun files c ts now s r hran
  refine ⟨schema, b, result, n, hran, hlookup, hn, ?_, fun f field hf hwrote => ?_⟩
  · rw [hdata]
    show reply.keys = _
    rw [hkeys, hb]
    exact schema.outputs.keys_mapValues _
  · rw [hdata]
    show reply.get? f = _
    rw [hvalues f hwrote, hb]
    show (schema.outputs.mapValues _).get? f = _
    rw [Table.get?_mapValues, hf]
    rfl

/-- A script that writes to a copy, has a write refused and catches that, and assigns the copy
back. -/
def copyingScript : String :=
  "let copy = reply; copy[\"seen\"] = 3; try \x7b copy.other = 1; \x7d catch \x7b \x7d reply = copy;"

theorem data_of_ok_copying :
    (probe.dispatch (probeFiles copyingScript []) (.ofToken 0) probeTokens 0 .prompt
      (probeRequest "null")).value.reply.status = .ok ∧
    ∃ schema b result n,
      probe.scriptRun? (probeFiles copyingScript []) (.ofToken 0) probeTokens 0 .prompt
        (probeRequest "null") = some (schema, b, result) ∧
      probe.catalog.lookup "probe" "look" = some schema ∧
      (leftBy result).replyVersion? = some n ∧
      (probe.dispatch (probeFiles copyingScript []) (.ofToken 0) probeTokens 0 .prompt
        (probeRequest "null")).value.reply.data.keys = schema.outputNames ∧
      ∀ f field, schema.outputs.get? f = some field → ¬ (leftBy result).Wrote n f →
        (probe.dispatch (probeFiles copyingScript []) (.ofToken 0) probeTokens 0 .prompt
          (probeRequest "null")).value.reply.data.get? f = some field.default :=
  ⟨by decide +kernel, data_of_ok _ _ _ _ _ _ _ (by decide +kernel)⟩

end Dispatcher

end ScriptedActions
