import ScriptedActions.Script.Interpreter
import ScriptedActions.Script.ScriptError
import ScriptedActions.Text.Utf8

/-!
# The script engine

The engine compiles the source of a script, runs it against a reply object, a request and a
message, and says what became of the reply object. `run` is a function of the script, the
bindings and the moment at which the run is told to stop.

A script remembers the reply object of its last run. A run that is refused before it starts,
because a binding holds an integer that no script integer can hold, leaves it alone.
-/

set_option autoImplicit false

namespace ScriptedActions.Script

/-- The values that a script gets. -/
structure Bindings where
  /-- The message that asks for the action, as a whole. -/
  rpc : Json
  /-- The inputs of the action. -/
  request : Table Json
  /-- The outputs of the action, with their defaults. -/
  reply : ReplyObject
deriving Inhabited

/-- A compiled script and the reply object that its last run left. -/
structure CompiledScript where
  program : Program
  reply : Option ReplyObject
deriving Inhabited

/-- What came of a run. -/
structure RunResult where
  outcome : Except ScriptError Unit
  script : CompiledScript
  /-- What the script wrote to the log. -/
  printed : List Printed
  /-- How long the run took, in nanoseconds. -/
  elapsed : Nat
deriving Inhabited

mutual

/-- The first integer in a value that is too large for a script integer. -/
def oversized : Json → Option Int
  | .int n => if Json.maxInt < n then some n else none
  | .array items => oversizedItem items
  | .object members => oversizedMember members
  | _ => none

/-- The first integer in the items of an array that is too large. -/
def oversizedItem : List Json → Option Int
  | [] => none
  | v :: rest => (oversized v).orElse fun _ => oversizedItem rest

/-- The first integer in the members of an object that is too large. -/
def oversizedMember : List (String × Json) → Option Int
  | [] => none
  | (_, v) :: rest => (oversized v).orElse fun _ => oversizedMember rest

end

namespace Bindings

/-- Why an integer cannot be bound. -/
def outOfRange (name : String) (n : Int) : ScriptError :=
  .binding name ("integer " ++ toString n ++ " is outside the script integer range " ++
    toString Json.minInt ++ "..=" ++ toString Json.maxInt)

/-- Why the values cannot be bound: the first of the reply, the request and the message that
holds an integer which is too large. -/
def refusal? (b : Bindings) : Option ScriptError :=
  ((oversizedMember b.reply.data).map (outOfRange "reply")).orElse fun _ =>
    ((oversizedMember b.request).map (outOfRange "request")).orElse fun _ =>
      (oversized b.rpc).map (outOfRange "rpc")

/-- The variables that a script starts with. -/
def scope (b : Bindings) : Array Variable :=
  #[⟨"rpc", true, [], Value.ofJson b.rpc⟩, ⟨"request", true, [], Value.ofJson (.object b.request)⟩,
    ⟨"reply", false, [], .reply 0⟩]

/-- The machine that a script starts on, which is told to stop at `stopsAt`. -/
def machine (b : Bindings) (stopsAt : Option Nat) : Machine where
  scope := b.scope
  focus := none
  cells := #[]
  versions := #[b.reply]
  writes := #[]
  attempts := #[]
  dropped := #[]
  operations := 0
  time := 0
  stopsAt := stopsAt
  halts := #[]
  printed := #[]
  imports := []
  loaded := []
  constants := []
  pending := []

end Bindings

namespace Machine

/-- The number of the version that the innermost variable of the reply holds, if it does. -/
def replyVersion? (m : Machine) : Option Nat := do
  let i ← Eval.indexOf m.scope "reply" m.scope.size
  let v ← m.scope[i]?
  let held := match v.value with
    | .shared c => m.cells[c]?.getD .unit
    | v => v
  match held with
  | .reply n => some n
  | _ => none

/-- The reply object: what the innermost variable of that name holds, if it is one. -/
def reply? (m : Machine) : Option ReplyObject := do
  let n ← m.replyVersion?
  m.versions[n]?

/-- What a fault of a run means for the caller of the script. -/
def classify (m : Machine) (f : Fault) : ScriptError :=
  match f.root? with
  | none => .interrupted m.time
  | some (.raised (.undeclared n)) =>
    match m.attempts[n]? with
    | some field => .undeclaredOutput field
    | none => .runtime f.message
  | _ => .runtime f.message

end Machine

/-- How deep code may be nested and how many rounds a loop may take: more than any run that ends
in a lifetime. -/
def fuel : Nat := 1000000000000000000

/-- The engine: what scripts may use up. -/
structure Engine where
  limits : Limits
deriving Repr, Inhabited

namespace Engine

/-- The extension of the files of scripts. -/
def extension : String := fileExtension

/-- Compiles the source of a script. -/
def compile (e : Engine) (source : List UInt8) : Except ScriptError CompiledScript :=
  match Text.Utf8.decode source with
  | .error f => .error (.compile ("script is not valid UTF-8: " ++ f.message))
  | .ok text =>
    match Program.parse e.limits text with
    | .error f => .error (.compile f.message)
    | .ok program => .ok ⟨program.simplified e.limits, none⟩

/-- What a script runs under: it finds the texts of modules with `moduleText`. -/
def surroundings (e : Engine) (program : Program) (moduleText : Path → Option String) :
    Surroundings where
  limits := e.limits
  moduleText := moduleText
  rounds := fuel
  level := 0
  homes := [⟨"", program.functions⟩]
  source := ""

/-- Runs the statements of a script on the machine that its bindings make. -/
def execute (e : Engine) (script : CompiledScript) (b : Bindings) (stopsAt : Option Nat)
    (moduleText : Path → Option String) : EStateM.Result Stop Machine Unit :=
  (runScript (interpret fuel) script.program.body).run
    (e.surroundings script.program moduleText) (b.machine stopsAt)

/-- Runs a script. -/
def run (e : Engine) (script : CompiledScript) (b : Bindings) (stopsAt : Option Nat)
    (moduleText : Path → Option String) : RunResult :=
  match b.refusal? with
  | some refused => ⟨.error refused, script, [], 0⟩
  | none =>
    let finish (outcome : Except ScriptError Unit) (m : Machine) : RunResult :=
      ⟨outcome, { script with reply := m.reply? }, m.printed.toList, m.time⟩
    match e.execute script b stopsAt moduleText with
    | .ok () m => finish (.ok ()) m
    | .error (.fault f) m => finish (.error (m.classify f)) m
    | .error _ m => finish (.ok ()) m

/-- The reply object that the last run left. -/
def extract (script : CompiledScript) : Except ScriptError ReplyObject :=
  match script.reply with
  | some r => .ok r
  | none => .error <| .binding "reply"
    "the script replaced the reply object; write fields with reply[\"name\"] = value"

end Engine

end ScriptedActions.Script
