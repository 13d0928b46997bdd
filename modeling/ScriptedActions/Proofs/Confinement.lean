import ScriptedActions.Dispatch.ScriptDirectory
import ScriptedActions.Proofs.Paths
import ScriptedActions.Schema.Discovery

/-!
# Where scripts and schemas are found

The names of an agent and of an action become two steps of a path. That they are checked first is
what keeps a script in its directory: a name that is allowed is a step of its own, and has no dot
that could be taken for the one in front of an extension. So the path of a script tells the names
that it was made from, and the path of a schema is read back as the names that it stands for
(`Schema.namesOfPath_schemaPath`).

The path is made before the names are checked. It is then part of the error and nothing else: no
file is looked at (`ScriptDirectory.resolve_of_not_areNames`).
-/

set_option autoImplicit false

namespace ScriptedActions

/-! ## Names -/

namespace Naming

theorem check_eq_ok_iff (name : String) : check name = .ok () ↔
    name ≠ "" ∧ name.utf8ByteSize ≤ maxLength ∧ ∀ c ∈ name.toList, isAllowed c := by
  unfold check
  by_cases hempty : name = ""
  · simp [hempty]
  · have hfull : name.isEmpty = false := by simpa using hempty
    rw [hfull, if_neg Bool.false_ne_true]
    by_cases hlong : maxLength < name.utf8ByteSize
    · simp [hlong, Nat.not_le.mpr hlong]
    · rw [if_neg hlong]
      cases hfind : name.toList.find? fun c => !isAllowed c with
      | none =>
        simp only [List.find?_eq_none, Bool.not_eq_true', Bool.not_eq_false] at hfind
        simp [hempty, Nat.not_lt.mp hlong]
        simpa using hfind
      | some c =>
        have hc := List.find?_some hfind
        have hmem := List.mem_of_find?_eq_some hfind
        simp only [reduceCtorEq, false_iff]
        rintro ⟨-, -, hall⟩
        simp [hall c hmem] at hc

theorem allowed_of_check {name : String} (h : check name = .ok ()) {c : Char}
    (hc : isAllowed c = false) : c ∉ name.toList := by
  intro hmem
  have hallowed := ((check_eq_ok_iff name).mp h).2.2 c hmem
  rw [hc] at hallowed
  cases hallowed

/-- A name that is allowed is a step of a path. -/
theorem isName_of_check {name : String} (h : check name = .ok ()) : Path.IsName name where
  nonempty := ((check_eq_ok_iff name).mp h).1
  notHere := by
    rintro rfl
    cases h
  notUp := by
    rintro rfl
    cases h
  noSlash := allowed_of_check h rfl

/-- A name that is allowed does not begin with a dot. -/
theorem head_of_check {name : String} (h : check name = .ok ()) :
    ∃ c cs, name.toList = c :: cs ∧ c ≠ '.' := by
  have hne : name.toList ≠ [] := mt String.toList_eq_nil_iff.mp (isName_of_check h).nonempty
  obtain ⟨c, cs, hcons⟩ := List.exists_cons_of_ne_nil hne
  refine ⟨c, cs, hcons, ?_⟩
  rintro rfl
  exact allowed_of_check h (c := '.') rfl (hcons ▸ List.mem_cons_self)

end Naming

/-- The names of an agent and of an action are allowed. -/
structure AreNames (agent action : String) : Prop where
  agent : Naming.check agent = .ok ()
  action : Naming.check action = .ok ()

/-! ## Files of actions -/

namespace Path

theorem isName_file {action extension : String} (haction : Naming.check action = .ok ())
    (hextension : '/' ∉ extension.toList) : IsName (action ++ "." ++ extension) := by
  have hlist : (action ++ "." ++ extension).toList = action.toList ++ '.' :: extension.toList := by
    simp [String.toList_append]
  obtain ⟨c, cs, hcons, hc⟩ := Naming.head_of_check haction
  rw [hcons] at hlist
  refine ⟨fun h => ?_, fun h => ?_, fun h => ?_, fun h => ?_⟩
  · simp [h] at hlist
  · rw [h] at hlist
    exact hc (List.cons.inj hlist).1.symm
  · rw [h] at hlist
    exact hc (List.cons.inj hlist).1.symm
  · rw [hlist, ← hcons, List.mem_append, List.mem_cons] at h
    rcases h with h | h | h
    · exact (Naming.isName_of_check haction).noSlash h
    · cases h
    · exact hextension h

/-- A path lies below another one if it is this one with steps down. -/
def IsBelow (p root : Path) : Prop :=
  ∃ names : List String, names ≠ [] ∧ p.parts = root.parts ++ names.map .name

end Path

namespace Schema

/-- Where the schema of an action stands in a directory. -/
def schemaPath (directory : Path) (agent action : String) : Path :=
  (directory.join agent).join (action ++ "." ++ fileExtension)

variable {agent action : String}

theorem isName_fileOf (h : AreNames agent action) :
    Path.IsName (action ++ "." ++ fileExtension) :=
  Path.isName_file h.action (by decide)

theorem splitName_fileOf (h : AreNames agent action) :
    Path.splitName (action ++ "." ++ fileExtension) = (action, some fileExtension) :=
  Path.splitName_eq_some.mpr ⟨rfl, (Naming.isName_of_check h.action).nonempty, by decide⟩

/-- **The path of a schema gives the names that it was made of.** -/
theorem namesOfPath_schemaPath (directory : Path) (h : AreNames agent action) :
    namesOfPath (schemaPath directory agent action) = .ok (agent, action) := by
  have hstem : (schemaPath directory agent action).stem? = some action := by
    rw [schemaPath, Path.stem?, Path.fileName?_join _ (isName_fileOf h), Option.map_some,
      splitName_fileOf h]
  have hdirectory : (schemaPath directory agent action).directoryName? = some agent :=
    Path.directoryName?_join directory (Naming.isName_of_check h.agent) (isName_fileOf h)
  unfold namesOfPath
  simp only [hstem, hdirectory, h.agent, h.action]

end Schema

namespace ScriptDirectory

variable (d : ScriptDirectory) {agent action : String}

theorem parts_pathOf (hextension : '/' ∉ d.extension.toList) (h : AreNames agent action) :
    (d.pathOf agent action).parts =
      d.root.parts ++ [.name agent, .name (action ++ "." ++ d.extension)] := by
  unfold pathOf
  rw [Path.parts_join _ (Path.isName_file h.action hextension),
    Path.parts_join _ (Naming.isName_of_check h.agent), List.append_assoc]
  rfl

theorem names_of_parts (hextension : '/' ∉ d.extension.toList) (h : AreNames agent action)
    {agent' action' : String} (h' : AreNames agent' action')
    (hparts : (d.pathOf agent' action').parts = (d.pathOf agent action).parts) :
    agent' = agent ∧ action' = action := by
  rw [parts_pathOf d hextension h, parts_pathOf d hextension h'] at hparts
  obtain ⟨hagent, hfile⟩ := List.cons.inj (List.append_cancel_left hparts)
  have haction : action' ++ "." ++ d.extension = action ++ "." ++ d.extension :=
    Path.Part.name.inj (List.cons.inj hfile).1
  rw [String.append_assoc, String.append_assoc] at haction
  exact ⟨Path.Part.name.inj hagent, (String.append_left_inj _).mp haction⟩

/-- **Without names that are allowed, nothing is read.** -/
theorem resolve_of_not_areNames (h : ¬ AreNames agent action) :
    ∃ reason, ∀ files, d.resolve files agent action =
      pure (.error (.scriptUnavailable (d.pathOf agent action).text reason)) := by
  unfold resolve
  cases hagent : Naming.check agent with
  | error e => exact ⟨_, fun _ => rfl⟩
  | ok _ =>
    cases haction : Naming.check action with
    | error e => exact ⟨_, fun _ => rfl⟩
    | ok _ => exact absurd ⟨hagent, haction⟩ h

theorem resolve_of_areNames (h : AreNames agent action) (files : Files) :
    d.resolve files agent action =
      match files.read (d.pathOf agent action) with
      | .error e => pure (.error (.scriptUnavailable (d.pathOf agent action).text e.message))
      | .ok bytes =>
        Logged.report .trace "Read action script"
          [("path", (d.pathOf agent action).text), ("bytes", toString bytes.length)] >>=
          fun _ => pure (.ok bytes) := by
  cases hread : files.read (d.pathOf agent action) with
  | error e => simp [resolve, h.agent, h.action, hread]
  | ok bytes => simp [resolve, h.agent, h.action, hread]

/-- **Scripts stay in their directory.** Unless both names are allowed, no file is looked at,
whatever files there are, and the script is unavailable. Otherwise the one file that is looked at
lies two steps below the directory, in that of the agent; no other action has it; and a schema that
stands under the same names, in any directory, is taken for the schema of this action. -/
theorem confined (hextension : '/' ∉ d.extension.toList) (agent action : String) :
    let path := d.pathOf agent action
    (¬ AreNames agent action → ∃ reason, ∀ files,
      d.resolve files agent action = pure (.error (.scriptUnavailable path.text reason))) ∧
    (AreNames agent action →
      (∀ files, (d.resolve files agent action).value =
        (files.read path).mapError fun e => .scriptUnavailable path.text e.message) ∧
      (∀ files files', files.read path = files'.read path →
        d.resolve files agent action = d.resolve files' agent action) ∧
      path.parts = d.root.parts ++ [.name agent, .name (action ++ "." ++ d.extension)] ∧
      path.IsBelow d.root ∧
      (∀ agent' action', AreNames agent' action' →
        (d.pathOf agent' action').parts = path.parts → agent' = agent ∧ action' = action) ∧
      ∀ directory, Schema.namesOfPath (Schema.schemaPath directory agent action) =
        .ok (agent, action)) := by
  intro path
  refine ⟨d.resolve_of_not_areNames, fun h => ⟨fun files => ?_, fun files files' hread => ?_, ?_⟩⟩
  · rw [d.resolve_of_areNames h]
    cases files.read (d.pathOf agent action) <;> rfl
  · rw [d.resolve_of_areNames h, d.resolve_of_areNames h]
    rw [show files.read (d.pathOf agent action) = files'.read (d.pathOf agent action) from hread]
  · have hparts := d.parts_pathOf hextension h
    exact ⟨hparts, ⟨[agent, action ++ "." ++ d.extension], by simp, hparts⟩,
      fun agent' action' h' => d.names_of_parts hextension h h',
      fun directory => Schema.namesOfPath_schemaPath directory h⟩

/-- A name that would lead out of the directory of scripts is refused, however it goes on. -/
theorem confined_climbing :
    let d : ScriptDirectory := ⟨⟨"scripts"⟩, "rhai"⟩
    '/' ∉ d.extension.toList ∧
    (∃ reason, ∀ files, d.resolve files ".." "../secret/x" =
      pure (.error (.scriptUnavailable "scripts/../../secret/x.rhai" reason))) ∧
    AreNames "package" "install" ∧
    (d.pathOf "package" "install").parts =
      [.name "scripts", .name "package", .name "install.rhai"] := by
  intro d
  have hextension : '/' ∉ d.extension.toList := by decide
  have hclimbing : ¬ AreNames ".." "../secret/x" := fun h => by cases h.agent
  have hplain : AreNames "package" "install" := ⟨rfl, rfl⟩
  have hpath : (d.pathOf ".." "../secret/x").text = "scripts/../../secret/x.rhai" := by decide +kernel
  obtain ⟨-, -, hparts, -⟩ := (d.confined hextension "package" "install").2 hplain
  refine ⟨hextension, ?_, hplain, hparts.trans (by decide +kernel)⟩
  rw [← hpath]
  exact (d.confined hextension ".." "../secret/x").1 hclimbing

end ScriptDirectory

end ScriptedActions
