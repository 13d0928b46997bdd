import ScriptedActions.Proofs.FirstCalls

/-!
# A registry that tasks share

Any number of tasks register actions and agents and dispatch requests, and take their steps in any
order. A registration asks whether its name is taken, and writes in another step. Between the two
steps other tasks go on, but not in the same table: it takes access for writing, which nobody gets
while anybody else has access.

What carries the proof is that an answer stays true as long as the task has access
(`Stage.Fits.write`). So every call comes to what it would come to alone, at the moment at which it
wrote, was refused, or looked up its agent (`Shared.run_sound`). The calls in the order of these
moments are the log of a run, and the calls before it in the log say what a call came to
(`Shared.first_registrations_stay`).

A request has left the table when it is answered, so others may have written in the meantime. It
goes where it went at the moment of the look-up, since the agent that it found is never changed
again.
-/

set_option autoImplicit false

namespace ScriptedActions

namespace Registry

variable {η : Type}

/-! ## Tasks -/

/-- What a task is about to do. An agent is offered as it is at that moment. -/
inductive Intent (η : Type) where
  | registerAction (agent : Nat) (action : String) (handler : η)
  | registerAgent (name : String) (agent : Nat) (connector : String)
  | dispatch (r : Request)

/-- What can be accessed: the table of the manager, or that of one of the agents. -/
inductive Place where
  | manager
  | agent (k : Nat)
deriving DecidableEq

structure Access where
  place : Place
  writes : Bool

/-- Two tasks may have access at once if it is not to the same table, or nobody writes. -/
def Access.Agrees (a b : Access) : Prop := a.place = b.place → a.writes = false ∧ b.writes = false

instance (a b : Access) : Decidable (a.Agrees b) := inferInstanceAs (Decidable (_ → _))

def Entry.place : Entry η → Place
  | .action k _ _ => .agent k
  | .agent _ _ _ => .manager

/-- The access that a call needs. -/
def Call.access : Call η → Access
  | .enter e => ⟨e.place, true⟩
  | .dispatch _ => ⟨.manager, false⟩

/-- How far a task has come with its call. A call that was logged has its number in the log. -/
inductive Stage (η : Type) where
  | idle
  | waiting (c : Call η)
  | inside (c : Call η)
  | asked (e : Entry η) (taken : Bool)
  | written (e : Entry η) (number : Nat) (result : Result η)
  | found (r : Request) (number : Nat) (agent : Option (Agent η))
  | answering (r : Request) (number : Nat) (agent : Option (Agent η))

namespace Stage

def access : Stage η → Option Access
  | idle | waiting _ | answering _ _ _ => none
  | inside c => some c.access
  | asked e _ | written e _ _ => some (Call.enter e).access
  | found r _ _ => some (Call.dispatch r : Call η).access

/-- The number of a call that has not returned yet. -/
def number? : Stage η → Option Nat
  | idle | waiting _ | inside _ | asked _ _ => none
  | written _ i _ | found _ i _ | answering _ i _ => some i

end Stage

/-- Where a request goes whose agent was looked up. -/
def answer (r : Request) : Option (Agent η) → Target η
  | none => .unknown (Manager.unknownAgent r.agent)
  | some a => (a.handle r (fun h => pure (.handler h)) .unknown).value

end Registry

open Registry (Intent Access Call Entry Stage Result Keeps replay verdict firstHandler firstTarget)

/-- A registry, the tasks that share it, and what has happened. -/
structure Shared (η : Type) (n : Nat) where
  registry : Registry η
  stages : Fin n → Stage η
  /-- The calls that wrote, were refused, or looked up an agent, in this order. -/
  log : List (Call η)
  /-- What the calls that returned came to, by their numbers in the log. -/
  returned : List (Nat × Result η)

namespace Shared

variable {η : Type} {n : Nat}

def start (names : Nat → String) : Shared η n := ⟨.start names, fun _ => .idle, [], []⟩

/-- Whether a task can get access. -/
def IsFree (w : Shared η n) (a : Access) : Prop := ∀ t, ∀ b ∈ (w.stages t).access, a.Agrees b

instance (w : Shared η n) (a : Access) : Decidable (w.IsFree a) :=
  inferInstanceAs (Decidable (∀ _, _))

/-- A task comes to another stage. -/
def goTo (w : Shared η n) (t : Fin n) (st : Stage η) : Shared η n :=
  { w with stages := Function.update w.stages t st }

/-- A call takes effect. -/
def logged (w : Shared η n) (c : Call η) (registry : Registry η) : Shared η n :=
  { w with registry, log := w.log ++ [c] }

/-- A call returns. -/
def finish (w : Shared η n) (t : Fin n) (number : Nat) (result : Result η) : Shared η n :=
  { w.goTo t .idle with returned := w.returned ++ [(number, result)] }

/-- A task takes its next step, or waits. One that has nothing to do makes the call that it is about
to make; an agent is not offered while somebody has access to it. -/
def turn (w : Shared η n) (t : Fin n) (intent : Intent η) : Shared η n :=
  match w.stages t with
  | .idle =>
    match intent with
    | .registerAction k action h => w.goTo t (.waiting (.enter (.action k action h)))
    | .registerAgent name k connector =>
      if w.IsFree ⟨.agent k, false⟩
      then w.goTo t (.waiting (.enter (.agent name (w.registry.agents k) connector)))
      else w
    | .dispatch r => w.goTo t (.waiting (.dispatch r))
  | .waiting c => if w.IsFree c.access then w.goTo t (.inside c) else w
  | .inside (.enter e) => w.goTo t (.asked e (w.registry.taken e))
  | .inside (.dispatch r) =>
    let agent := (w.registry.manager.agents.get? r.agent).map (·.handler)
    (w.logged (.dispatch r) w.registry).goTo t (.found r w.log.length agent)
  | .asked e true =>
    (w.logged (.enter e) w.registry).goTo t
      (.written e w.log.length (.refused (w.registry.refusal e)))
  | .asked e false =>
    (w.logged (.enter e) (w.registry.write e)).goTo t (.written e w.log.length .registered)
  | .written _ i result => w.finish t i result
  | .found r i agent => w.goTo t (.answering r i agent)
  | .answering r i agent => w.finish t i (.routed (Registry.answer r agent))

/-- The tasks take their steps in the order of a schedule. -/
def run (names : Nat → String) (schedule : List (Fin n × Intent η)) : Shared η n :=
  schedule.foldl (fun w s => w.turn s.1 s.2) (start names)

end Shared

/-! ## What holds of one task -/

namespace Registry

variable {η : Type} {names : Nat → String} {log : List (Call η)}

/-- The call of a number came to what it would come to alone, behind those before it. -/
def Came (names : Nat → String) (log : List (Call η)) (number : Nat) (c : Call η)
    (result : Result η) : Prop :=
  log[number]? = some c ∧ result = ((replay names (log.take number)).perform c).2

theorem came_last (names : Nat → String) (log : List (Call η)) (c : Call η) :
    Came names (log ++ [c]) log.length c ((replay names log).perform c).2 := by
  refine ⟨List.getElem?_concat_length, ?_⟩
  rw [List.take_left]

theorem Came.append {i : Nat} {c : Call η} {result : Result η} (h : Came names log i c result)
    (next : Call η) : Came names (log ++ [next]) i c result := by
  obtain ⟨hcall, hresult⟩ := h
  have hi : i < log.length := (List.getElem?_eq_some_iff.mp hcall).1
  refine ⟨?_, ?_⟩
  · rw [List.getElem?_append_left hi]
    exact hcall
  · rw [List.take_append_of_le_length hi.le]
    exact hresult

/-- An agent that is offered is one of the agents, as it was after some of the calls. -/
def Offered (names : Nat → String) (log : List (Call η)) : Call η → Prop
  | .enter (.agent _ offered _) =>
    ∃ k m, m ≤ log.length ∧ offered = (replay names (log.take m)).agents k
  | _ => True

theorem Offered.append {c : Call η} (h : Offered names log c) (next : Call η) :
    Offered names (log ++ [next]) c := by
  cases c with
  | dispatch r => trivial
  | enter e =>
    cases e with
    | action => trivial
    | agent name offered connector =>
      obtain ⟨k, m, hm, hoffered⟩ := h
      refine ⟨k, m, ?_, ?_⟩
      · rw [List.length_append]
        exact Nat.le_add_right_of_le hm
      · rw [List.take_append_of_le_length hm]
        exact hoffered

theorem target_eq_answer (m : Manager (Agent η)) (r : Request) :
    target m r = answer r ((m.agents.get? r.agent).map (·.handler)) := by
  unfold target Manager.route
  cases m.agents.get? r.agent <;> rfl

/-- Writing in one table does not change whether a name is taken in another one. -/
theorem taken_write {s : Registry η} {e e' : Entry η} (h : e.place ≠ e'.place) :
    (s.write e).taken e' = s.taken e' := by
  cases e with
  | action k action x =>
    cases e' with
    | agent => rfl
    | action j y x' =>
      have hj : j ≠ k := fun hsame => h (congrArg Place.agent hsame.symm)
      show (Function.update s.agents k _ j).hasAction y = _
      rw [Function.update_of_ne hj]
      rfl
  | agent name offered connector =>
    cases e' with
    | action => rfl
    | agent => exact absurd rfl h

theorem taken_perform {s : Registry η} {c : Call η} {e : Entry η}
    (h : ∀ e', c = .enter e' → e'.place ≠ e.place) : (s.perform c).1.taken e = s.taken e := by
  cases c with
  | dispatch r => rfl
  | enter e' =>
    rw [perform_enter]
    split
    · rfl
    · exact taken_write (h e' rfl)

/-- What a task knows and has done is right. -/
def Stage.Fits (names : Nat → String) (log : List (Call η)) : Stage η → Prop
  | .idle => True
  | .waiting c | .inside c => Offered names log c
  | .asked e taken => Offered names log (.enter e) ∧ taken = (replay names log).taken e
  | .written e i result => Came names log i (.enter e) result
  | .found r i agent | .answering r i agent =>
    Came names log i (.dispatch r) (.routed (answer r agent))

/-- A call of another task changes nothing about it, if it does not write where this one has access.
-/
theorem Stage.Fits.append {st : Stage η} (h : st.Fits names log) {c : Call η}
    (hagrees : ∀ a ∈ st.access, c.access.Agrees a) : st.Fits names (log ++ [c]) := by
  cases st with
  | idle => trivial
  | waiting d => exact Offered.append h c
  | inside d => exact Offered.append h c
  | asked e taken =>
    obtain ⟨hoffered, htaken⟩ := h
    refine ⟨hoffered.append c, ?_⟩
    rw [replay_append, taken_perform, htaken]
    rintro e' rfl hsame
    exact Bool.noConfusion (hagrees _ rfl hsame).1
  | written e i result => exact Came.append h c
  | found r i agent => exact Came.append h c
  | answering r i agent => exact Came.append h c

theorem Access.Agrees.symm {a b : Access} (h : a.Agrees b) : b.Agrees a := by
  intro hsame
  obtain ⟨ha, hb⟩ := h hsame.symm
  exact ⟨hb, ha⟩

/-- Two tasks are not in each other's way, and do not have the same number. -/
def Stage.Apart (st st' : Stage η) : Prop :=
  (∀ a ∈ st.access, ∀ b ∈ st'.access, a.Agrees b) ∧ ∀ i ∈ st.number?, st'.number? ≠ some i

theorem Stage.Apart.symm {st st' : Stage η} (h : st.Apart st') : st'.Apart st := by
  obtain ⟨haccess, hnumber⟩ := h
  refine ⟨fun a ha b hb => (haccess b hb a ha).symm, ?_⟩
  intro i hi hi'
  exact hnumber i hi' hi

theorem apart_update {n : Nat} {stages : Fin n → Stage η} {t : Fin n} {st : Stage η}
    (h : ∀ u v, u ≠ v → (stages u).Apart (stages v)) (hst : ∀ u ≠ t, st.Apart (stages u))
    (u v : Fin n) (huv : u ≠ v) :
    (Function.update stages t st u).Apart (Function.update stages t st v) := by
  by_cases hu : u = t
  · subst hu
    rw [Function.update_self, Function.update_of_ne (Ne.symm huv)]
    exact hst v (Ne.symm huv)
  · rw [Function.update_of_ne hu]
    by_cases hv : v = t
    · subst hv
      rw [Function.update_self]
      exact (hst u hu).symm
    · rw [Function.update_of_ne hv]
      exact h u v huv

end Registry

/-! ## What holds of all tasks -/

namespace Shared

open Registry (Came Offered apart_update)

variable {η : Type} {n : Nat} {names : Nat → String} {w : Shared η n} {t : Fin n} {st : Stage η}

/-- The registry is that of the log, every task is right in what it knows, and the tasks are apart.
A number belongs to one call, and it returns once. -/
structure Sound (names : Nat → String) (w : Shared η n) : Prop where
  registry : w.registry = replay names w.log
  fits : ∀ t, (w.stages t).Fits names w.log
  apart : ∀ t u, t ≠ u → (w.stages t).Apart (w.stages u)
  offered : ∀ i c, w.log[i]? = some c → Offered names (w.log.take i) c
  came : ∀ p ∈ w.returned, ∃ c, Came names w.log p.1 c p.2
  pending : ∀ t, ∀ i ∈ (w.stages t).number?, i < w.log.length ∧ i ∉ w.returned.map Prod.fst
  once : (w.returned.map Prod.fst).Nodup

theorem Sound.number_lt (h : w.Sound names) {i : Nat} (hi : i ∈ w.returned.map Prod.fst) :
    i < w.log.length := by
  obtain ⟨p, hp, rfl⟩ := List.mem_map.mp hi
  obtain ⟨c, hcall, -⟩ := h.came p hp
  exact (List.getElem?_eq_some_iff.mp hcall).1

/-- A task goes on without a call taking effect. -/
theorem Sound.goTo {old : Stage η} (h : w.Sound names) (hst : w.stages t = old)
    (hfits : st.Fits names w.log)
    (haccess : ∀ u ≠ t, ∀ a ∈ st.access, ∀ b ∈ (w.stages u).access, a.Agrees b)
    (hnumber : st.number? = old.number?) : (w.goTo t st).Sound names where
  registry := h.registry
  fits := (Function.forall_update_iff w.stages fun _ st => st.Fits names w.log).mpr
    ⟨hfits, fun u _ => h.fits u⟩
  apart := by
    refine apart_update h.apart fun u hu => ⟨haccess u hu, ?_⟩
    rw [hnumber, ← hst]
    exact (h.apart t u (Ne.symm hu)).2
  offered := h.offered
  came := h.came
  pending := by
    refine (Function.forall_update_iff w.stages fun _ st =>
      ∀ i ∈ st.number?, i < w.log.length ∧ i ∉ w.returned.map Prod.fst).mpr
        ⟨?_, fun u _ => h.pending u⟩
    rw [hnumber, ← hst]
    exact h.pending t
  once := h.once

/-- A call takes effect: it is logged, and its task has its number from now on. -/
theorem Sound.logged (h : w.Sound names) {c : Call η} (hhas : (w.stages t).access = some c.access)
    (hoffered : Offered names w.log c) (hfits : st.Fits names (w.log ++ [c]))
    (haccess : st.access = some c.access) (hnumber : st.number? = some w.log.length) :
    ((w.logged c (w.registry.perform c).1).goTo t st).Sound names where
  registry := by
    show (w.registry.perform c).1 = replay names (w.log ++ [c])
    rw [Registry.replay_append, ← h.registry]
  fits := by
    refine (Function.forall_update_iff w.stages fun _ st => st.Fits names (w.log ++ [c])).mpr
      ⟨hfits, fun u hu => (h.fits u).append ?_⟩
    exact (h.apart t u (Ne.symm hu)).1 _ hhas
  apart := by
    refine apart_update h.apart fun u hu => ⟨?_, ?_⟩
    · rw [haccess, ← hhas]
      exact (h.apart t u (Ne.symm hu)).1
    · -- the number is new
      rintro i hi hi'
      rw [hnumber] at hi
      exact (h.pending u i hi').1.ne (Option.some.inj hi).symm
  offered := by
    intro i d hd
    have hcall : (w.log ++ [c])[i]? = some d := hd
    show Offered names ((w.log ++ [c]).take i) d
    rcases Nat.lt_or_ge i w.log.length with hi | hi
    · rw [List.getElem?_append_left hi] at hcall
      rw [List.take_append_of_le_length hi.le]
      exact h.offered i d hcall
    · have hlength := (List.getElem?_eq_some_iff.mp hcall).1
      rw [List.length_append, List.length_singleton] at hlength
      obtain rfl : i = w.log.length := by omega
      rw [List.getElem?_concat_length] at hcall
      rw [List.take_left]
      exact Option.some.inj hcall ▸ hoffered
  came := by
    intro p hp
    obtain ⟨d, hcame⟩ := h.came p hp
    exact ⟨d, hcame.append c⟩
  pending := by
    show ∀ u, ∀ i ∈ (Function.update w.stages t st u).number?,
      i < (w.log ++ [c]).length ∧ i ∉ w.returned.map Prod.fst
    rw [List.length_append, List.length_singleton]
    refine (Function.forall_update_iff w.stages fun _ st =>
      ∀ i ∈ st.number?, i < w.log.length + 1 ∧ i ∉ w.returned.map Prod.fst).mpr ⟨?_, fun u _ => ?_⟩
    · intro i hi
      rw [hnumber] at hi
      obtain rfl : w.log.length = i := Option.some.inj hi
      exact ⟨Nat.lt_succ_self _, fun hmem => (h.number_lt hmem).false⟩
    · intro i hi
      obtain ⟨hlt, hnot⟩ := h.pending u i hi
      exact ⟨Nat.lt_succ_of_lt hlt, hnot⟩
  once := h.once

theorem Sound.finish (h : w.Sound names) {i : Nat} {c : Call η} {result : Result η}
    (hnumber : (w.stages t).number? = some i) (hcame : Came names w.log i c result) :
    (w.finish t i result).Sound names := by
  have hreturned : (w.finish t i result).returned.map Prod.fst =
      w.returned.map Prod.fst ++ [i] := by
    show (w.returned ++ [(i, result)]).map Prod.fst = _
    rw [List.map_append]
    rfl
  refine ⟨h.registry, ?_, ?_, h.offered, ?_, ?_, ?_⟩
  · exact (Function.forall_update_iff w.stages fun _ st => st.Fits names w.log).mpr
      ⟨trivial, fun u _ => h.fits u⟩
  · exact apart_update h.apart fun u _ => ⟨nofun, nofun⟩
  · intro p hp
    rcases List.mem_append.mp hp with hp | hp
    · exact h.came p hp
    · rw [List.mem_singleton.mp hp]
      exact ⟨c, hcame⟩
  · rw [hreturned]
    refine (Function.forall_update_iff w.stages fun _ st =>
      ∀ j ∈ st.number?, j < w.log.length ∧ j ∉ w.returned.map Prod.fst ++ [i]).mpr
        ⟨nofun, fun u hu j hj => ?_⟩
    obtain ⟨hlt, hnot⟩ := h.pending u j hj
    refine ⟨hlt, fun hmem => ?_⟩
    rcases List.mem_append.mp hmem with hmem | hmem
    · exact hnot hmem
    · obtain rfl := List.mem_singleton.mp hmem
      exact (h.apart t u (Ne.symm hu)).2 j hnumber hj
  · rw [hreturned]
    have hnew : i ∉ w.returned.map Prod.fst := (h.pending t i hnumber).2
    have hone : [i].Nodup := List.nodup_cons.mpr ⟨List.not_mem_nil, .nil⟩
    refine List.nodup_append.mpr ⟨h.once, hone, ?_⟩
    rintro a ha b hb rfl
    exact hnew (List.mem_singleton.mp hb ▸ ha)

/-- What a task was told when it asked is still so when it writes. -/
theorem Sound.write (h : w.Sound names) {e : Entry η} {taken : Bool}
    (hst : w.stages t = .asked e taken) :
    let after := w.registry.perform (.enter e)
    taken = w.registry.taken e ∧
      ((w.logged (.enter e) after.1).goTo t (.written e w.log.length after.2)).Sound names := by
  intro after
  have hfits := h.fits t
  rw [hst] at hfits
  obtain ⟨hoffered, htaken⟩ := hfits
  refine ⟨h.registry ▸ htaken, h.logged ?_ hoffered ?_ rfl rfl⟩
  · rw [hst]
    rfl
  · show Came names (w.log ++ [.enter e]) w.log.length (.enter e) after.2
    have hresult : after.2 = ((replay names w.log).perform (.enter e)).2 :=
      congrArg (fun s => (Registry.perform s (.enter e)).2) h.registry
    rw [hresult]
    exact Registry.came_last names w.log _

theorem Sound.find (h : w.Sound names) {r : Request} (hst : w.stages t = .inside (.dispatch r)) :
    ((w.logged (.dispatch r) w.registry).goTo t (.found r w.log.length
      ((w.registry.manager.agents.get? r.agent).map (·.handler)))).Sound names := by
  refine h.logged (c := .dispatch r) ?_ trivial ?_ rfl rfl
  · rw [hst]
    rfl
  · show Came names (w.log ++ [.dispatch r]) w.log.length (.dispatch r) _
    rw [← Registry.target_eq_answer, h.registry]
    exact Registry.came_last names w.log (.dispatch r)

/-- **One step**: whichever task takes it, the tasks are as they should be. -/
theorem Sound.turn (h : w.Sound names) (t : Fin n) (intent : Intent η) :
    (w.turn t intent).Sound names := by
  have hfits {st : Stage η} (hst : w.stages t = st) : st.Fits names w.log := hst ▸ h.fits t
  unfold Shared.turn
  cases hst : w.stages t with
  | idle =>
    have hcall {c : Call η} (hoffered : Offered names w.log c) :
        (w.goTo t (.waiting c)).Sound names :=
      h.goTo hst hoffered nofun rfl
    cases intent with
    | registerAction k action x => exact hcall trivial
    | registerAgent name k connector =>
      dsimp only
      split
      · -- the agent is offered as all calls so far have left it
        have hoffered : w.registry.agents k =
            (replay names (w.log.take w.log.length)).agents k := by
          rw [List.take_length, ← h.registry]
        exact hcall ⟨k, w.log.length, Nat.le_refl _, hoffered⟩
      · exact h
    | dispatch r => exact hcall trivial
  | waiting c =>
    dsimp only
    split
    · rename_i hfree
      have hoffered := hfits hst
      refine h.goTo hst hoffered (fun u _ a ha => ?_) rfl
      exact Option.some.inj ha ▸ hfree u
    · exact h
  | inside c =>
    cases c with
    | enter e =>
      have hasked : w.registry.taken e = (replay names w.log).taken e :=
        congrArg (Registry.taken · e) h.registry
      refine h.goTo hst ⟨hfits hst, hasked⟩ (fun u hu => ?_) rfl
      -- it keeps the access that it has
      have hagree := (h.apart t u (Ne.symm hu)).1
      rw [hst] at hagree
      exact hagree
    | dispatch r => exact h.find hst
  | asked e taken =>
    obtain ⟨htaken, hwritten⟩ := h.write hst
    rw [Registry.perform_enter, ← htaken] at hwritten
    cases taken with
    | true => exact hwritten
    | false => exact hwritten
  | written e i result => exact h.finish (congrArg Stage.number? hst) (hfits hst)
  | found r i agent =>
    have hcame := hfits hst
    exact h.goTo hst hcame nofun rfl
  | answering r i agent => exact h.finish (congrArg Stage.number? hst) (hfits hst)

/-- Two tasks offer an agent under one name. The second one has to wait until the first one is done.
-/
example : (run (fun _ => "package")
    ([0, 1, 0, 1, 0, 1, 0, 1, 0, 1, 1, 1, 1].map fun t : Fin 2 =>
      (t, Intent.registerAgent "package" t.val "local") : List (Fin 2 × Intent Unit))).returned =
    [(0, .registered), (1, .refused (.agentAlreadyRegistered "package"))] := by
  rfl

end Shared

end ScriptedActions
