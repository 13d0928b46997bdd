import ScriptedActions.Proofs.Deadlines

/-!
# Runs that are told to stop

What a dispatch comes to when its context ends while it lasts. The end can be noticed by the
dispatcher, which gives up waiting, and by a check of the script, which raises a fault that nothing
went wrong to cause: an interruption. If neither notices it in time, the dispatch is the one whose
context has no end.

An interruption that ends the run makes it one of a timeout. **But an interruption can be dropped**,
by a sort or a removal of repeated items whose function raises it, by a `catch` around a call that
it came through, or by a fault that takes its place; and the run may be over before the next
check. This is the one way to a third outcome (`Dispatcher.reply_of_context`), and the ledger of
interruptions says that there is no other.
-/

set_option autoImplicit false

namespace ScriptedActions

namespace Script

/-- Nothing went wrong: the run was told to stop, perhaps inside of calls. -/
def Fault.IsInterruption (f : Fault) : Prop := f.root? = none

/-- If a run was told to stop, there is an interruption that is under way or was dropped. -/
def Noticed (K : List Fault) (m : Machine) : Prop :=
  0 < m.halts.size → ∃ f, (f ∈ K ∨ f ∈ m.dropped) ∧ f.IsInterruption

namespace Noticed

variable {K K' : List Fault} {m n : Machine} {f : Fault}

/-- The interruptions may be found elsewhere, as long as each of them is found. -/
theorem refound (h : Noticed K m) (hhalts : n.halts.size = m.halts.size)
    (hK : ∀ f ∈ K, f.IsInterruption → ∃ g, (g ∈ K' ∨ g ∈ n.dropped) ∧ g.IsInterruption)
    (hdropped : ∀ f ∈ m.dropped, f ∈ n.dropped) : Noticed K' n := by
  intro hn
  obtain ⟨f, hf | hf, hi⟩ := h (hhalts ▸ hn)
  · exact hK f hf hi
  · exact ⟨f, .inr (hdropped f hf), hi⟩

theorem cons (h : Noticed K m) (f : Fault) : Noticed (f :: K) m := by
  refine h.refound rfl ?_ fun _ hg => hg
  intro g hg hi
  exact ⟨g, .inl (.tail _ hg), hi⟩

end Noticed

/-- The ledger of the interruptions. -/
def Ledger.interruptions : Ledger where
  Holds := Noticed
  perm hp h := h.refound rfl (fun f hf hi => ⟨f, .inl (hp.mem_iff.mp hf), hi⟩) fun _ hf => hf
  quiet hmn h := h.refound (congrArg (·.halts.size) hmn.record)
    (fun f hf hi => ⟨f, .inl hf, hi⟩) fun _ hf => hmn.dropped ▸ hf
  raise {_ _ f} _ h := h.cons f
  rewrap {_ _ f g} hg h := h.refound rfl (fun k hk hi => by
    rcases List.mem_cons.mp hk with rfl | hk
    · exact ⟨g, .inl (.head _), hg.trans hi⟩
    · exact ⟨k, .inl (.tail _ hk), hi⟩) fun _ hf => hf
  drop {_ _ f} h := h.refound rfl (fun k hk hi => by
    rcases List.mem_cons.mp hk with rfl | hk
    · exact ⟨k, .inr Array.mem_push_self, hi⟩
    · exact ⟨k, .inl hk, hi⟩) fun _ hg => Array.mem_push_of_mem f hg
  forget hf h := h.refound rfl (fun k hk hi => by
    rcases List.mem_cons.mp hk with rfl | hk
    · obtain ⟨c, hc, -⟩ := hf
      cases hc.symm.trans hi
    · exact ⟨k, .inl hk, hi⟩) fun _ hf => hf
  write _ _ _ h := h
  refuse p _ _ h := by
    refine (h.refound rfl ?_ fun _ hf => hf).cons _
    intro f hf hi
    exact ⟨f, .inl hf, hi⟩
  halt p _ _ := by
    intro _
    exact ⟨.terminated p, .inl (.head _), rfl⟩

namespace Engine

variable (e : Engine) (script : CompiledScript) (b : Bindings) (stopsAt : Option Nat)
  (moduleText : Path → Option String)

/-- **A run that was told to stop** ends with an interruption, or an interruption was dropped. -/
theorem interruption_execute
    (h : 0 < (leftBy (e.execute script b stopsAt moduleText)).halts.size) :
    (∃ f m, e.execute script b stopsAt moduleText = .error (.fault f) m ∧ f.IsInterruption) ∨
      ∃ f ∈ (leftBy (e.execute script b stopsAt moduleText)).dropped, f.IsInterruption := by
  have hafter := Ledger.interruptions.execute e script b stopsAt moduleText (by
    intro hhalts
    simp [Bindings.machine] at hhalts)
  cases hr : e.execute script b stopsAt moduleText with
  | ok u m =>
    rw [hr] at hafter h
    obtain ⟨f, hf, hi⟩ := hafter.holds h
    exact .inr ⟨f, hf.resolve_left List.not_mem_nil, hi⟩
  | error stop m =>
    rw [hr] at hafter h
    cases stop with
    | jump j =>
      obtain ⟨f, hf, hi⟩ := hafter.holds h
      exact .inr ⟨f, hf.resolve_left List.not_mem_nil, hi⟩
    | fault g =>
      obtain ⟨f, hf | hf, hi⟩ := hafter.holds h
      · obtain rfl := List.mem_singleton.mp hf
        exact .inl ⟨_, m, rfl, hi⟩
      · exact .inr ⟨f, hf, hi⟩

/-- A run with a deadline is the run without one, or it was told to stop. -/
theorem execute_or_halted :
    (∃ t, e.execute script b stopsAt moduleText =
        stoppingAt t (e.execute script b none moduleText)) ∨
      0 < (leftBy (e.execute script b stopsAt moduleText)).halts.size := by
  cases stopsAt with
  | none =>
    left
    refine ⟨none, ?_⟩
    have hlater := (Discipline.timely.script script.program.body).later
      (e.surroundings script.program moduleText) (b.machine none)
    have hnone : (leftBy (e.execute script b none moduleText)).stopsAt = none := hlater.stopsAt
    rcases hr : e.execute script b none moduleText with ⟨u, m⟩ | ⟨stop, m⟩ <;>
      (rw [hr] at hnone; cases m; cases hnone; rfl)
  | some t =>
    have htimely := Discipline.timely.script script.program.body
    obtain hsame | ⟨hhalts, -⟩ := htimely.notices
      (e.surroundings script.program moduleText) (b.machine none) t rfl
    · exact .inl ⟨some t, hsame⟩
    · exact .inr hhalts

end Engine

end Script

namespace Dispatcher

open Script

/-- An interruption that ends a run makes it one of a timeout. -/
theorem settled_of_interruption {f : Fault} {m : Machine} (h : f.IsInterruption) :
    settled (.error (.fault f) m) = .error (.timeout m.time) := by
  have hroot : f.root? = none := h
  simp [settled, Engine.verdict, Machine.classify, hroot, DispatchError.ofScript]

variable (d : Dispatcher) (files : Files) (c : Context) (ts : Tokens) (now : Nat) (s : Schedule)
  (r : Request)

/-- The reply to a request whose context has no end. -/
def uninterrupted : Reply :=
  replyFor <|
    match (d.scripts.resolve files r.agent r.action).value, r.prepare d.catalog with
    | .error e, _ => .error e
    | .ok _, .error e => .error e
    | .ok source, .ok (_, b) =>
      (thread d.engine (moduleText files) source b none 0 .prompt).outcome

/-- A dispatch that is done before its context ends has that reply. -/
theorem reply_eq_uninterrupted (h : d.isUndisturbed files c ts now s r) :
    (d.dispatch files c ts now s r).value.reply = d.uninterrupted files r := by
  unfold uninterrupted
  cases hresolved : (d.scripts.resolve files r.agent r.action).value with
  | error e => exact d.reply_of_unresolved files c ts now s r hresolved
  | ok source =>
    cases hprepared : r.prepare d.catalog with
    | error e => exact d.reply_of_unprepared files c ts now s r hresolved hprepared
    | ok p =>
      obtain ⟨schema, b⟩ := p
      rw [d.reply_of_inTime files c ts now s r hresolved hprepared h]
      simp only [outcome_thread, Option.map_none]

/-- What a thread comes to: what it comes to without an end of its context, a timeout, or the end of
a run that dropped an interruption. -/
theorem outcome_of_stop {e : Engine} {modules : Path → Option String} {source : List UInt8}
    {b : Bindings} (stop : Option Nat) :
    (thread e modules source b stop now s).outcome =
        (thread e modules source b none 0 .prompt).outcome ∨
      (∃ elapsed, (thread e modules source b stop now s).outcome = .error (.timeout elapsed)) ∨
      ∃ script, e.compile source = .ok script ∧ b.refusal? = none ∧
        ∃ f ∈ (leftBy (e.execute script b
          (stop.map (· - (now + s.start + s.compile + s.run))) modules)).dropped,
          f.IsInterruption := by
  rw [outcome_thread, outcome_thread]
  cases hcompiled : e.compile source with
  | error f => exact .inl rfl
  | ok script =>
    cases hrefusal : b.refusal? with
    | some refused => exact .inl rfl
    | none =>
      dsimp only
      obtain ⟨t, hsame⟩ | hhalted := e.execute_or_halted script b
        (stop.map (· - (now + s.start + s.compile + s.run))) modules
      · left
        rw [hsame, settled_stoppingAt]
        rfl
      · right
        obtain ⟨f, m, hr, hf⟩ | hdropped := e.interruption_execute script b _ modules hhalted
        · left
          exact ⟨m.time, by rw [hr, settled_of_interruption hf]⟩
        · exact .inr ⟨script, rfl, rfl, hdropped⟩

/-- **The reply to a request whose context may end at any moment**, for every order in which the
script, its thread and the dispatcher notice it. It is the reply of all dispatches of the request
that are done before their contexts end, or one of a timeout, or the run dropped an interruption
and the reply is what the run came to nevertheless. -/
theorem reply_of_context :
    (∀ c' ts' now' s', d.isUndisturbed files c' ts' now' s' r →
      (d.dispatch files c' ts' now' s' r).value.reply = d.uninterrupted files r) ∧
    ((d.dispatch files c ts now s r).value.reply = d.uninterrupted files r ∨
      (∃ elapsed, (d.dispatch files c ts now s r).value.reply =
        ⟨.aborted, (DispatchError.timeout elapsed).message, []⟩) ∨
      ∃ schema b result f, d.scriptRun? files c ts now s r = some (schema, b, result) ∧
        f ∈ (leftBy result).dropped ∧ f.IsInterruption ∧
        (d.dispatch files c ts now s r).value.reply = replyFor (settled result)) := by
  refine ⟨fun c' ts' now' s' => d.reply_eq_uninterrupted files c' ts' now' s' r, ?_⟩
  cases hresolved : (d.scripts.resolve files r.agent r.action).value with
  | error e =>
    left
    rw [d.reply_of_unresolved files c ts now s r hresolved]
    simp [uninterrupted, hresolved, replyFor]
  | ok source =>
    cases hprepared : r.prepare d.catalog with
    | error e =>
      left
      rw [d.reply_of_unprepared files c ts now s r hresolved hprepared]
      simp [uninterrupted, hresolved, hprepared, replyFor]
    | ok p =>
      obtain ⟨schema, b⟩ := p
      rw [d.reply_of_prepared files c ts now s r hresolved hprepared]
      -- the dispatcher gives up, or the thread decides
      obtain hdecides | ⟨ends, -, -, htimeout⟩ := awaited_or_timeout
        (thread d.engine (moduleText files) source b (d.stopFor schema c ts now s) now s)
        (d.stopFor schema c ts now s) now s
      · rw [hdecides]
        obtain hsame | ⟨elapsed, htimeout⟩ | ⟨script, hcompiled, hrefusal, f, hf, hi⟩ :=
          outcome_of_stop now s (d.stopFor schema c ts now s)
        · left
          rw [hsame]
          simp [uninterrupted, hresolved, hprepared]
        · right
          left
          exact ⟨elapsed, by rw [htimeout]; rfl⟩
        · right
          right
          refine ⟨schema, b, _, f, ?_, hf, hi, ?_⟩
          · simp only [scriptRun?, hresolved, hprepared, hcompiled, hrefusal]
          · rw [outcome_thread]
            simp only [hcompiled, hrefusal]
      · right
        left
        exact ⟨_, htimeout⟩

/-- A script that counts the comparisons of a sort. -/
def sortingScript : String := "let a = [2, 1]; a.sort(|x, y| { reply.seen += 1; x - y });"

/-- A context that ends while the comparison is made, which the dispatcher is slow to notice. -/
def sortingContext : Context := ⟨0, some 52000⟩

def slowNotice : Schedule := { Schedule.prompt with notice := 1000000 }

/-- The sort drops the interruption, and the reply is OK without the comparison having been
counted, which it is if the context does not end. -/
theorem reply_of_context_sorting :
    (probe.dispatch (probeFiles sortingScript []) (.ofToken 0) probeTokens 0 .prompt
        (probeRequest "null")).value.reply =
      probe.uninterrupted (probeFiles sortingScript []) (probeRequest "null") ∧
    ∃ schema b result f, probe.scriptRun? (probeFiles sortingScript []) sortingContext probeTokens 0
        slowNotice (probeRequest "null") = some (schema, b, result) ∧
      f ∈ (leftBy result).dropped ∧ f.IsInterruption ∧
      (probe.dispatch (probeFiles sortingScript []) sortingContext probeTokens 0 slowNotice
        (probeRequest "null")).value.reply = replyFor (settled result) := by
  have hnever : probe.isUndisturbed (probeFiles sortingScript []) (.ofToken 0) probeTokens 0
      .prompt (probeRequest "null") := by decide +kernel
  have hcounted : ((probe.uninterrupted (probeFiles sortingScript [])
      (probeRequest "null")).data.get? "seen").any (Json.same (.int 1)) = true := by
    decide +kernel
  have hok : (probe.dispatch (probeFiles sortingScript []) sortingContext probeTokens 0 slowNotice
      (probeRequest "null")).value.reply.status = .ok := by decide +kernel
  have hmissed : ((probe.dispatch (probeFiles sortingScript []) sortingContext probeTokens 0
      slowNotice (probeRequest "null")).value.reply.data.get? "seen").any (Json.same (.int 1)) =
        false := by decide +kernel
  obtain ⟨hsame, hcases⟩ := reply_of_context probe (probeFiles sortingScript []) sortingContext
    probeTokens 0 slowNotice (probeRequest "null")
  refine ⟨hsame _ _ _ _ hnever, ?_⟩
  obtain hsame | ⟨elapsed, htimeout⟩ | hdropped := hcases
  · rw [hsame, hcounted] at hmissed
    cases hmissed
  · rw [htimeout] at hok
    cases hok
  · exact hdropped

end Dispatcher

end ScriptedActions
