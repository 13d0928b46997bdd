import ScriptedActions.Files.Walk
import ScriptedActions.Log
import ScriptedActions.Naming
import ScriptedActions.Schema.Catalog

/-!
# Finding schemas

The schema of an action stands in the file `<agent>/<action>.json` of a schema directory; the
names of the agent and of the action are taken from the path. `discover` makes a catalog of the
files of several directories. What cannot be read is reported and passed over, and of two schemas
of one action the one found first counts. Names that start with a dot are passed over inside the
directories of agents. The search does not offer the directories of agents themselves, so these are
gone into whatever they are called, and the names of agents are checked file by file.
-/

set_option autoImplicit false

namespace ScriptedActions

/-- Why a schema cannot be loaded. -/
inductive SchemaError where
  /-- The file cannot be read. -/
  | loadFailed (path : Path) (reason : String)
  /-- The file is no schema. -/
  | invalidFormat (path : Path) (reason : String)
  /-- The path names no agent and no action. -/
  | invalidName (path : Path) (reason : String)
deriving DecidableEq, Repr, Inhabited

/-- The wording of a schema error. -/
def SchemaError.message : SchemaError → String
  | loadFailed p r => "failed to load schema from " ++ p.text ++ ": " ++ r
  | invalidFormat p r => "invalid schema format in " ++ p.text ++ ": " ++ r
  | invalidName p r => "invalid schema name for " ++ p.text ++ ": " ++ r

namespace Schema

/-- The extension of schema files. -/
def fileExtension : String := "json"

/-- The agent and the action that a path names. -/
def namesOfPath (p : Path) : Except SchemaError (String × String) :=
  match p.stem? with
  | none => .error (.invalidName p "file name is not valid UTF-8")
  | some action =>
    match p.directoryName? with
    | none => .error (.invalidName p "schema must live in an agent directory")
    | some agent =>
      match Naming.check agent with
      | .error e => .error (.invalidName p ("agent " ++ e.message))
      | .ok () =>
        match Naming.check action with
        | .error e => .error (.invalidName p ("action " ++ e.message))
        | .ok () => .ok (agent, action)

/-- Loads a schema. -/
def load (files : Files) (p : Path) : Except SchemaError ActionSchema :=
  match namesOfPath p with
  | .error e => .error e
  | .ok (agent, action) =>
    match files.readText p with
    | .error e => .error (.loadFailed p e.message)
    | .ok text =>
      match SchemaFile.decoder.parse text with
      | .error e => .error (.invalidFormat p e.message)
      | .ok file => .ok { ActionSchema.ofFile agent action file with path := some p }

/-- Adds a schema to a catalog, with what there is to report of it. -/
def add (c : Catalog) (s : ActionSchema) : Logged Catalog := do
  let about := [("agent", s.agent), ("action", s.action)]
  let _ ← s.mistypedDefaults.mapM fun field =>
    Logged.report .warn "Output default does not match its declared type"
      (about ++ [("field", field)])
  if c.contains s.agent s.action then
    let shown := s.path.elim "None" fun p => "Some(" ++ Text.quoted p.text ++ ")"
    Logged.report .warn "Duplicate action schema ignored" (about ++ [("path", shown)])
  else Logged.report .debug "Loaded action schema" about
  pure (c.insert s)

/-- Whether a name is hidden. -/
def isHidden (name : String) : Bool := name.toList.head? == some '.'

/-- How a directory is searched: for what stands in the directories of agents, without what is
hidden. -/
def search : Walk := ⟨2, 2, fun depth name => depth == 0 || !isHidden name⟩

/-- Whether an entry is a schema file, told by its name. -/
def isCandidate (e : Walk.Entry) : Bool :=
  e.kind == .file && e.path.extension? == some fileExtension

/-- Adds the schema of a file to a catalog, or reports why there is none. -/
def addFile (files : Files) (c : Catalog) (p : Path) : Logged Catalog :=
  match load files p with
  | .ok s => add c s
  | .error e => do
    Logged.report .warn "Failed to load schema" [("path", p.text), ("error", e.message)]
    pure c

/-- Adds what a search gives to a catalog. -/
def addItem (files : Files) (directory : Path) (c : Catalog) : Walk.Item → Logged Catalog
  | .entry e => if isCandidate e then addFile files c e.path else pure c
  | .unlisted p e => do
    let problem := "IO error for operation on " ++ p.text ++ ": " ++ e.message
    Logged.report .warn "Failed to read schema directory entry"
      [("dir", directory.text), ("error", problem)]
    pure c

/-- Adds the schemas of a directory to a catalog. -/
def addDirectory (files : Files) (c : Catalog) (directory : Path) : Logged Catalog :=
  if files.isDirectory directory then
    (search.items files directory).foldlM (addItem files directory) c
  else do
    Logged.report .warn "Schema directory not found, skipping" [("dir", directory.text)]
    pure c

/-- The schemas of several directories. -/
def discover (files : Files) (directories : List Path) : Logged Catalog := do
  let c ← directories.foldlM (addDirectory files) Catalog.empty
  Logged.report .info "Schema discovery complete"
    [("agents", toString c.agentNames.length), ("actions", toString c.size)]
  pure c

end Schema

end ScriptedActions
