import ScriptedActions.Files.Path
import ScriptedActions.ReplyObject
import ScriptedActions.Script.Access
import ScriptedActions.Script.Limits

/-!
# The machine

What a running script changes, what it runs under, and the computations on both.

A computation `Eval α` reads its surroundings, changes the machine and ends with a value of `α` or
with a `Stop`: a fault, or a jump out of a loop or a function. Whatever a script does to the
machine goes through the operations of this module. Two of them decide what a run may do:
`tick` counts an operation, and refuses it when the run has used up its operations or was told
to stop, and `checkSize` refuses values that are too large. Neither refusal can be caught.

Time is a matter of operations, every one of which takes `tickTime`; so a run is a function of
its script, its bindings and the moment at which it is told to stop.

What is opened for a computation is closed behind it, whichever way it ends: variables are
forgotten, and a value that was in focus is put back where it belongs. The machine knows what is
open, so it can be said how things stand in the middle of a run.

Besides what a script can see, the machine keeps a record of the run: the writes to the reply
object, those that were refused, the checks at which the run was told to stop, and the faults that
did not end it.
-/

set_option autoImplicit false

namespace ScriptedActions.Script

/-- What a script uses of another one: its functions, the variables that it offers and the
modules that it uses itself. -/
inductive Module where
  | mk (home : Home) (declared : List (String × Value)) (parts : List (String × Module))

/-- A declared variable. -/
structure Variable where
  name : String
  constant : Bool
  /-- The names under which the variable is offered to the users of the module. -/
  offered : List String
  value : Value

/-- What an access is about, and whether it may be changed. -/
structure Target where
  value : Value
  constant : Bool

/-- A line that the script wrote to the log. -/
structure Printed where
  /-- Whether it was written for debugging; only then does its origin matter. -/
  forDebugging : Bool
  text : String
  source : String
  place : Place
  /-- When the line was written, in nanoseconds after the begin of the run. -/
  time : Nat
deriving DecidableEq, Repr, Inhabited

/-- A write to a version of the reply object that made a new version. -/
structure Write where
  /-- The number of the version that was written to. -/
  base : Nat
  field : String
  value : Json

/-- Where a value belongs that is in focus. -/
inductive Owner where
  /-- To nothing: it is not kept. -/
  | nothing
  /-- To the variable at a place. -/
  | slot (i : Nat)
  /-- To the value that was in focus before, as a part of it. -/
  | part (part : Part) (p : Place)

/-- Something that was opened, and what there was before. -/
inductive Closing where
  /-- Variables are declared behind the first `n`. -/
  | declaring (n : Nat)
  /-- There are other variables. -/
  | scope (outer : Array Variable)
  /-- More modules are in use. -/
  | imports (outer : List (String × Module))
  /-- Operations do not count. -/
  | operations (n : Nat)
  /-- Something else is in focus, which belongs to an owner. -/
  | focus (outer : Option Target) (owner : Owner)

/-- How things stood at a check that told the run to stop. -/
structure Halt where
  scope : Array Variable
  focus : Option Target
  cells : Array Value
  operations : Nat
  imports : List (String × Module)
  /-- What was open, the innermost first. -/
  pending : List Closing
  /-- How many versions of the reply object there were. -/
  versions : Nat

/-- The state of a run. -/
structure Machine where
  /-- The variables that can be seen, the innermost last. -/
  scope : Array Variable
  /-- What the current access is about; inside a function it is what `this` stands for. -/
  focus : Option Target
  /-- The contents of the shared variables. -/
  cells : Array Value
  /-- The versions of the reply object; the first one is the reply that the run was given. -/
  versions : Array ReplyObject
  /-- The writes that made the versions after the first one, in their order. -/
  writes : Array Write
  /-- The names of the undeclared outputs to which the script tried to write. -/
  attempts : Array String
  /-- The faults that did not end the run: a handler took them, or they were passed over. -/
  dropped : Array Fault
  operations : Nat
  /-- Nanoseconds since the run began. -/
  time : Nat
  /-- When the run is told to stop, in nanoseconds after its begin. -/
  stopsAt : Option Nat
  /-- How things stood at every check that told the run to stop. -/
  halts : Array Halt
  printed : Array Printed
  /-- The modules in use, the last one first. -/
  imports : List (String × Module)
  /-- The modules that were read, by their files. -/
  loaded : List (Path × Module)
  /-- The constants of the script itself, which its functions can see. -/
  constants : List (String × Value)
  /-- What is open, the innermost first. -/
  pending : List Closing

/-- How things stand. -/
def Machine.halt (m : Machine) : Halt where
  scope := m.scope
  focus := m.focus
  cells := m.cells
  operations := m.operations
  imports := m.imports
  pending := m.pending
  versions := m.versions.size

/-- What a run runs under. -/
structure Surroundings where
  limits : Limits
  /-- The text of the file that a module is read from. -/
  moduleText : Path → Option String
  /-- How many rounds a loop can take at all. -/
  rounds : Nat
  /-- How many calls are open. -/
  level : Nat
  /-- Where functions are looked up, the nearest place first. -/
  homes : List Home
  /-- The path of the module that runs. -/
  source : String

/-- Where a computation goes that does not come to its end. -/
inductive Jump where
  /-- A loop is left with a value. -/
  | leave (v : Value)
  /-- A loop goes on with its next round. -/
  | again
  /-- A function ends with a value. -/
  | giveBack (v : Value)
  /-- The script ends. -/
  | quit (v : Value)

/-- Why a computation does not end with its value. -/
inductive Stop where
  | fault (f : Fault)
  | jump (j : Jump)

/-- A computation of a run. -/
structure Eval (α : Type) where
  run : Surroundings → Machine → EStateM.Result Stop Machine α

namespace Eval

variable {α β : Type}

/-- The computation that just has a value. -/
@[always_inline, inline] protected def pure (a : α) : Eval α := ⟨fun _ m => .ok a m⟩

/-- One computation after another. -/
@[always_inline, inline] protected def bind (x : Eval α) (f : α → Eval β) : Eval β :=
  ⟨fun s m => match x.run s m with
    | .ok a m => (f a).run s m
    | .error e m => .error e m⟩

instance : Monad Eval where
  pure := Eval.pure
  bind := Eval.bind

instance : Inhabited (Eval α) := ⟨⟨fun _ m => .error (.jump .again) m⟩⟩

/-- The computation that stops. -/
def stop (e : Stop) : Eval α := ⟨fun _ m => .error e m⟩

/-- The computation that ends with a fault. -/
def fault (c : Cause) (p : Place) : Eval α := stop (.fault (.here c p))

/-- The outcome of a pure step, a fault of which is placed. -/
def ofExcept (r : Except Cause α) (p : Place) : Eval α :=
  match r with
  | .ok a => pure a
  | .error c => fault c p

/-- The computation that goes elsewhere. -/
def jump (j : Jump) : Eval α := stop (.jump j)

/-! ## Computations that stop

Each of these takes a computation that may stop and says what then happens. Where a fault is lost
on the way, it is remembered. -/

/-- Remembers a fault that does not end the run. -/
def drop (f : Fault) : Eval Unit := ⟨fun _ m => .ok () { m with dropped := m.dropped.push f }⟩

/-- How a computation ends, as a value. -/
@[inline] def outcome (x : Eval α) : Eval (Except Stop α) :=
  ⟨fun s m => match x.run s m with
    | .ok a m => .ok (.ok a) m
    | .error e m => .ok (.error e) m⟩

/-- A computation in place of which a fault would have come. -/
@[inline] def inPlaceOf (f : Fault) (x : Eval α) : Eval α :=
  ⟨fun s m => match x.run s m with
    | .ok a m => .ok a m
    | .error e m => .error e { m with dropped := m.dropped.push f }⟩

/-- A computation and, whichever way it ends, another one. If both stop, the second one counts. -/
@[inline] def andThen (x : Eval α) (after : Eval Unit) : Eval α := do
  match ← x.outcome with
  | .ok a => do
    after
    pure a
  | .error (.fault f) => do
    after.inPlaceOf f
    stop (.fault f)
  | .error (.jump j) => do
    after
    jump j

/-- A computation whose faults are changed. -/
@[inline] def mapFault (f : Fault → Fault) (x : Eval α) : Eval α :=
  ⟨fun s m => match x.run s m with
    | .ok a m => .ok a m
    | .error (.fault e) m => .error (.fault (f e)) m
    | .error (.jump j) m => .error (.jump j) m⟩

/-- A computation whose faults get a place if they have none. -/
@[inline] def orAt (p : Place) (x : Eval α) : Eval α := x.mapFault (Fault.orAt p)

/-- Where a computation comes to: its value, or where it jumps. -/
@[inline] def landing (x : Eval α) : Eval (Except Jump α) :=
  ⟨fun s m => match x.run s m with
    | .ok a m => .ok (.ok a) m
    | .error (.jump j) m => .ok (.error j) m
    | .error (.fault f) m => .error (.fault f) m⟩

/-- A computation that ends with what it gives back. -/
@[inline] def returned (x : Eval Value) : Eval Value := do
  match ← x.landing with
  | .ok v | .error (.giveBack v) => pure v
  | .error j => jump j

/-- The value of a computation, or what `kind` makes of its fault. -/
@[inline] def catching (kind : Fault → Option β) (x : Eval α) : Eval (Except β α) :=
  ⟨fun s m => match x.run s m with
    | .ok a m => .ok (.ok a) m
    | .error (.jump j) m => .error (.jump j) m
    | .error (.fault f) m =>
      match kind f with
      | some b => .ok (.error b) m
      | none => .error (.fault f) m⟩

/-- The value of a computation, if it does not stop. -/
@[inline] def value? (x : Eval α) : Eval (Option α) := do
  match ← x.outcome with
  | .ok a => pure (some a)
  | .error (.fault f) => do
    drop f
    pure none
  | .error (.jump _) => pure none

/-- A computation whose faults go to a handler, unless nothing can handle them. The handler ends
with a value, or with a place at which the fault comes again. -/
@[inline] def handling (x : Eval α) (handler : Fault → Eval (Except Place α)) : Eval α := do
  match ← x.outcome with
  | .ok a => pure a
  | .error (.jump j) => jump j
  | .error (.fault f) =>
    if f.isFatal then stop (.fault f)
    else do
      drop f
      match ← handler f with
      | .ok a => pure a
      | .error p => stop (.fault (f.at_ p))

/-! ## Surroundings and rounds -/

/-- What the computation runs under. -/
def surroundings : Eval Surroundings := ⟨fun s m => .ok s m⟩

/-- A computation under other surroundings. -/
@[inline] def under (f : Surroundings → Surroundings) (x : Eval α) : Eval α :=
  ⟨fun s m => x.run (f s) m⟩

/-- Rounds of `body`, up to the one that gives a result. -/
def rounds (body : β → Eval (β ⊕ α)) :
    Nat → β → Surroundings → Machine → EStateM.Result Stop Machine α
  | 0, _, _, m => .error (.fault (.here .exhausted .none)) m
  | n + 1, b, s, m =>
    match (body b).run s m with
    | .ok (.inl b) m => rounds body n b s m
    | .ok (.inr a) m => .ok a m
    | .error e m => .error e m

/-- A loop: rounds of `body` on what the round before it left. -/
@[inline] def loop (b : β) (body : β → Eval (β ⊕ α)) : Eval α := do
  let s ← surroundings
  ⟨rounds body s.rounds b⟩

/-! ## Operations and sizes -/

/-- The nanoseconds that an operation takes. -/
def tickTime : Nat := 200

/-- Counts an operation at a place. -/
def tick (p : Place) : Eval Unit :=
  ⟨fun s m =>
    let n := m.operations + 1
    let t := m.time + tickTime
    let m := { m with operations := n, time := t }
    if s.limits.operations ≠ 0 && s.limits.operations < n then
      .error (.fault (.here .tooManyOperations p)) m
    else if m.stopsAt.any (· ≤ t) then
      .error (.fault (.terminated p)) { m with halts := m.halts.push m.halt }
    else .ok () m⟩

/-- Lets time pass. -/
def sleep (nanos : Nat) : Eval Unit := ⟨fun _ m => .ok () { m with time := m.time + nanos }⟩

/-- The time since the run began. -/
def now : Eval Nat := ⟨fun _ m => .ok m.time m⟩

/-- The number of operations that were counted. -/
def operations : Eval Nat := ⟨fun _ m => .ok m.operations m⟩

/-- Sets the number of operations. -/
def setOperations (n : Nat) : Eval Unit := ⟨fun _ m => .ok () { m with operations := n }⟩

/-- Why a size is refused, if it is. -/
def oversize (l : Limits) (z : Value.Size) : Option String :=
  if l.textSize ≠ 0 && l.textSize < z.bytes then some "Length of string"
  else if l.arraySize ≠ 0 && l.arraySize < z.items then some "Size of array/BLOB"
  else if l.mapSize ≠ 0 && l.mapSize < z.entries then some "Size of object map"
  else none

/-- Refuses a size that is too large. -/
def checkMeasure (z : Value.Size) (p : Place) : Eval Unit := do
  match oversize (← surroundings).limits z with
  | some kind => fault (.dataTooLarge kind) p
  | none => pure ()

/-- Refuses a value that is too large. -/
def checkSize (v : Value) (p : Place) : Eval Unit := do
  if (← surroundings).limits.boundsData then checkMeasure v.size p

/-! ## Variables -/

/-- The place of a variable among the first `n`, searched from the last one. -/
def indexOf (scope : Array Variable) (name : String) : Nat → Option Nat
  | 0 => none
  | n + 1 =>
    match scope[n]? with
    | some v => if v.name == name then some n else indexOf scope name n
    | none => indexOf scope name n

/-- The place of a variable. -/
def find? (name : String) : Eval (Option Nat) :=
  ⟨fun _ m => .ok (indexOf m.scope name m.scope.size) m⟩

/-- The variable at a place. -/
def variableAt? (i : Nat) : Eval (Option Variable) := ⟨fun _ m => .ok m.scope[i]? m⟩

/-- The number of variables. -/
def scopeSize : Eval Nat := ⟨fun _ m => .ok m.scope.size m⟩

/-- Declares a variable. -/
def declare (name : String) (constant : Bool) (v : Value) : Eval Unit :=
  ⟨fun _ m => .ok () { m with scope := m.scope.push ⟨name, constant, [], v⟩ }⟩

/-- Forgets all variables but the first `n`. -/
def forget (n : Nat) : Eval Unit := ⟨fun _ m => .ok () { m with scope := m.scope.take n }⟩

/-- Changes the variable at a place. -/
def changeVariable (i : Nat) (f : Variable → Variable) : Eval Unit :=
  ⟨fun _ m => .ok () { m with scope := m.scope.modify i f }⟩

/-- The variables that are offered, by the names that they are offered under. -/
def offered (first : Nat) : Eval (List (String × Value)) :=
  ⟨fun _ m => .ok ((m.scope.toList.drop first).flatMap fun v =>
    v.offered.map fun n => (n, v.value)) m⟩

/-- Replaces the variables. The result is the ones before. -/
def exchangeScope (scope : Array Variable) : Eval (Array Variable) :=
  ⟨fun _ m => .ok m.scope { m with scope := scope }⟩

/-! ## Shared variables -/

/-- A new cell. -/
def newCell (v : Value) : Eval Nat :=
  ⟨fun _ m => .ok m.cells.size { m with cells := m.cells.push v }⟩

/-- What a value stands for: the contents of its cell, if it is shared. -/
def contents (v : Value) : Eval Value :=
  match v with
  | .shared c => ⟨fun _ m => .ok (m.cells[c]?.getD .unit) m⟩
  | v => pure v

/-- Replaces the contents of a cell. -/
def writeCell (c : Nat) (v : Value) : Eval Unit :=
  ⟨fun _ m => .ok () { m with cells := m.cells.set! c v }⟩

/-- Makes the variable at a place shared. -/
def share (i : Nat) : Eval Unit := do
  match ← variableAt? i with
  | some ⟨_, _, _, .shared _⟩ => pure ()
  | some v =>
    let c ← newCell v.value
    changeVariable i fun v => { v with value := .shared c }
  | none => pure ()

/-- Assigns to the variable at a place. -/
def assign (i : Nat) (v : Value) : Eval Unit := do
  match ← variableAt? i with
  | some ⟨_, _, _, .shared c⟩ => writeCell c v
  | _ => changeVariable i fun x => { x with value := v }

/-! ## The focus -/

/-- What the current access is about. -/
def focus? : Eval (Option Target) := ⟨fun _ m => .ok m.focus m⟩

/-- The value that the current access is about. -/
def focused : Eval Value := ⟨fun _ m => .ok (m.focus.elim .unit (·.value)) m⟩

/-- Changes the value that the current access is about. -/
def refocus (v : Value) : Eval Unit :=
  ⟨fun _ m => .ok () { m with focus := m.focus.map fun t => { t with value := v } }⟩

/-- Turns to something else. The result is what was in focus before. -/
def exchangeFocus (t : Option Target) : Eval (Option Target) :=
  ⟨fun _ m => .ok m.focus { m with focus := t }⟩

/-! ## Reply objects -/

/-- The version of the reply object with a number. -/
def version (n : Nat) : Eval ReplyObject :=
  ⟨fun _ m => .ok (m.versions[n]?.getD default) m⟩

/-- How the versions of the reply object are written. -/
def renderer : Eval (Nat → String) :=
  ⟨fun _ m =>
    let versions := m.versions
    .ok (fun n => (versions[n]?.getD default).render) m⟩

/-- Writes to an output of a version. The result is the number of the new version; a write to
an output that is not declared is remembered as an attempt. A script holds numbers of versions
only, so there always is such a version. -/
def writeOutput (n : Nat) (field : String) (value : Json) (p : Place) : Eval Nat :=
  ⟨fun _ m =>
    match m.versions[n]? with
    | none => .error (.fault (.here (.wrongType "" "ReplyObject") p)) m
    | some version =>
      match version.set field value with
      | .ok r =>
        .ok m.versions.size
          { m with versions := m.versions.push r, writes := m.writes.push ⟨n, field, value⟩ }
      | .error _ =>
        .error (.fault (.here (.raised (.undeclared m.attempts.size)) p))
          { m with attempts := m.attempts.push field }⟩

/-! ## Modules, constants and the log -/

/-- The modules in use. -/
def imports : Eval (List (String × Module)) := ⟨fun _ m => .ok m.imports m⟩

/-- Replaces the modules in use. -/
def setImports (l : List (String × Module)) : Eval Unit :=
  ⟨fun _ m => .ok () { m with imports := l }⟩

/-- The module that was read from a file. -/
def loaded? (path : Path) : Eval (Option Module) :=
  ⟨fun _ m => .ok ((m.loaded.find? (·.1 == path)).map Prod.snd) m⟩

/-- Remembers the module that was read from a file. -/
def remember (path : Path) (module : Module) : Eval Unit :=
  ⟨fun _ m => .ok () { m with loaded := (path, module) :: m.loaded }⟩

/-- The constant of the script with a name. -/
def constant? (name : String) : Eval (Option Value) :=
  ⟨fun _ m => .ok ((m.constants.find? (·.1 == name)).map Prod.snd) m⟩

/-- Remembers a constant of the script. -/
def addConstant (name : String) (v : Value) : Eval Unit :=
  ⟨fun _ m => .ok () { m with constants := (name, v) :: m.constants }⟩

/-- Writes a line to the log. -/
def print (forDebugging : Bool) (text : String) (p : Place) : Eval Unit :=
  ⟨fun s m =>
    .ok () { m with printed := m.printed.push ⟨forDebugging, text, s.source, p, m.time⟩ }⟩

/-! ## Opening and closing -/

/-- Puts a value back to its owner. -/
def putBack (v : Value) : Owner → Eval Unit
  | .nothing => pure ()
  | .slot i => assign i v
  | .part part p => do refocus (← ofExcept (part.put (← focused) v) p)

/-- Closes what was opened. -/
def close : Closing → Eval Unit
  | .declaring n => forget n
  | .scope outer => do
    let _ ← exchangeScope outer
    pure ()
  | .imports outer => setImports outer
  | .operations n => setOperations n
  | .focus outer owner => do
    match ← exchangeFocus outer with
    | some left => putBack left.value owner
    | none => pure ()

/-- Notes that something is open. The result is what was open before. -/
def noteOpen (c : Closing) : Eval (List Closing) :=
  ⟨fun _ m => .ok m.pending { m with pending := c :: m.pending }⟩

/-- Notes what is open. -/
def setOpen (l : List Closing) : Eval Unit := ⟨fun _ m => .ok () { m with pending := l }⟩

/-- A computation behind which something is closed. -/
@[inline] def closing (c : Closing) (x : Eval α) : Eval α := do
  let outer ← noteOpen c
  x.andThen do
    setOpen outer
    close c

/-- A computation whose operations do not count for what follows. -/
@[inline] def uncounted (x : Eval α) : Eval α := do closing (.operations (← operations)) x

/-- A computation after which the variables that it declared are forgotten. -/
@[inline] def inside (x : Eval α) : Eval α := do closing (.declaring (← scopeSize)) x

/-- A computation with variables of its own. -/
@[inline] def withScope (inner : Array Variable) (x : Eval α) : Eval α := do
  closing (.scope (← exchangeScope inner)) x

/-- A computation after which the modules that it uses are forgotten. -/
@[inline] def withImports (x : Eval α) : Eval α := do closing (.imports (← imports)) x

/-- A computation about something else, which belongs to an owner. -/
@[inline] def about (t : Option Target) (owner : Owner) (x : Eval α) : Eval α := do
  closing (.focus (← exchangeFocus t) owner) x

/-- A computation about nothing. -/
@[inline] def aboutNothing (x : Eval α) : Eval α := about none .nothing x

/-- A computation about a value that belongs to nothing, and what is left of the value. -/
@[inline] def aboutValue (v : Value) (x : Eval α) : Eval (α × Value) :=
  about (some ⟨v, false⟩) .nothing do
    let a ← x
    pure (a, ← focused)

/-- A computation about the variable at a place. -/
@[inline] def aboutVariable (i : Nat) (x : Eval α) : Eval α := do
  match ← variableAt? i with
  | some v => about (some ⟨← contents v.value, v.constant⟩) (.slot i) x
  | none => x

end Eval

end ScriptedActions.Script
