import Mathlib.Data.List.Induction
import ScriptedActions.Proofs.Deadlines
import ScriptedActions.Proofs.Registration

/-!
# Sessions

Three things age differently in a session. The catalog of the provider is replaced whenever it looks
for schemas. A registered agent holds the catalog of the moment at which it was registered. Scripts
and modules are read anew for every request.

What is registered under a name is therefore settled by the first register step that registers
anything under it, and later steps do not matter (`Session.registration?_run`); the reply to a request is
settled by the catalog of that step and by the files of the moment of the request.
-/

set_option autoImplicit false

namespace ScriptedActions

namespace Session

/-! ## What steps keep -/

/-- What is true of a session with a configuration, whatever has happened. -/
structure IsWith (k : Config) (s : Session) : Prop where
  config : s.provider.config = k
  inOrder : s.provider.catalog.InOrder

variable {k : Config} {s : Session}

theorem IsWith.step (h : s.IsWith k) (e : SessionStep) : (s.step e).value.IsWith k := by
  cases e with
  | discover => exact ⟨h.config, Schema.inOrder_discover s.files _⟩
  | write p t => exact ⟨h.config, h.inOrder⟩
  | remove p => exact ⟨h.config, h.inOrder⟩
  | register connector refuses => exact ⟨h.config, h.inOrder⟩
  | dispatch c now sch r => exact ⟨h.config, h.inOrder⟩

theorem IsWith.run (h : s.IsWith k) (steps : List SessionStep) : (s.run steps).IsWith k := by
  induction steps generalizing s with
  | nil => exact h
  | cons e rest ih => exact ih (h.step e)

theorem run_append (s : Session) (first second : List SessionStep) :
    s.run (first ++ second) = (s.run first).run second :=
  List.foldl_append

/-! ## What is registered -/

/-- What a step registers under a name if nothing is registered there. -/
def granted? (s : Session) (name : String) :
    SessionStep → Option (Registration (Agent Dispatcher))
  | .register connector refuses => s.provider.granted? connector refuses name
  | _ => none

/-- **A step leaves alone what is registered.** -/
theorem registration?_step (h : s.IsWith k) (e : SessionStep) (name : String) :
    (s.step e).value.registration? name = (s.registration? name).or (s.granted? name e) := by
  cases e with
  | register connector refuses =>
    exact Provider.get?_registerAll connector refuses h.inOrder s.manager name
  | write p t => exact (Option.or_none).symm
  | remove p => exact (Option.or_none).symm
  | discover => exact (Option.or_none).symm
  | dispatch c now sch r => exact (Option.or_none).symm

theorem registration?_run_of_some (h : s.IsWith k) {name : String}
    {reg : Registration (Agent Dispatcher)} (hreg : s.registration? name = some reg)
    (steps : List SessionStep) : (s.run steps).registration? name = some reg := by
  induction steps generalizing s with
  | nil => exact hreg
  | cons e rest ih =>
    refine ih (h.step e) ?_
    rw [registration?_step h e, hreg]
    rfl

/-- Some steps register an agent: at one of them the provider has schemas for the name, the name
is not refused, and nothing is registered under it. -/
def Registers (s : Session) (steps : List SessionStep) (name connector : String) (p : Provider) :
    Prop :=
  ∃ before refuses after, steps = before ++ .register connector refuses :: after ∧
    (s.run before).provider = p ∧ name ∈ p.agentNames ∧ refuses name = false ∧
    (s.run before).registration? name = none

/-- What was registered stays registered. -/
theorem Registers.registration? (h : s.IsWith k) {steps : List SessionStep} {name connector : String}
    {p : Provider} (hreg : s.Registers steps name connector p) :
    (s.run steps).registration? name = some ⟨p.agentOf name, connector⟩ := by
  obtain ⟨before, refuses, after, rfl, rfl, hname, hrefuses, hnone⟩ := hreg
  rw [run_append]
  refine registration?_run_of_some ((h.run before).step _) ?_ after
  rw [registration?_step (h.run before), hnone, Option.none_or]
  exact if_pos ⟨hname, hrefuses⟩

theorem Registers.append {steps : List SessionStep} {name connector : String} {p : Provider}
    (h : s.Registers steps name connector p) (later : List SessionStep) :
    s.Registers (steps ++ later) name connector p := by
  obtain ⟨before, refuses, after, rfl, hrest⟩ := h
  exact ⟨before, refuses, after ++ later, by simp, hrest⟩

variable (s : Session) (c : Context) (now : Nat) (sch : Schedule) (r : Request)

/-- A host with its scripts and schemas in one directory. -/
def homeConfig : Config :=
  { Config.standard with scriptDirectory := ⟨"scripts"⟩, schemaDirectories := [⟨"scripts"⟩] }

/-- A session of that host in which nothing has happened. -/
def home : Session := begin homeConfig ⟨.dir [], []⟩ Dispatcher.probeTokens

/-- The host is given an action whose script counts with a module, and finds it. -/
def discovering (module : String) : List SessionStep :=
  [.write ⟨"scripts/probe/look.rhai"⟩
      (Dispatcher.textFile "import \"words\" as words; reply.seen = words::count;"),
    .write ⟨"scripts/probe/look.json"⟩
      (Dispatcher.textFile "\x7b\"output\": \x7b\"seen\": \x7b\"type\": \"integer\"\x7d\x7d\x7d"),
    .write ⟨"words.rhai"⟩ (Dispatcher.textFile module), .discover]

/-- The host registers what it found. -/
def registering (module : String) : List SessionStep :=
  discovering module ++ [.register "local" fun _ => false]

/-- What the script counts if it is asked now. -/
def counted (s : Session) : Option Int :=
  match (s.answer (.ofToken 0) 0 .prompt (Dispatcher.probeRequest "null")).value.reply.data with
  | [("seen", .int n)] => some n
  | _ => none

end Session

end ScriptedActions
