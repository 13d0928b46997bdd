import ScriptedActions.Files.Path
import ScriptedActions.Table
import ScriptedActions.Text.Utf8

/-!
# Trees of files

The files that a program finds, as a value: a tree of directories and a working directory. Paths
are followed step by step, and a step can be taken from a directory only; nothing in a tree
refers to another place of it, so a step up leads to the directory that was come from. The entries of
a directory stand in the order in which the file system lists them, which can be any.
-/

set_option autoImplicit false

namespace ScriptedActions

/-- Why a file or directory cannot be used. -/
inductive FileError where
  | notFound
  | permissionDenied
  | exists
  | notADirectory
  | isADirectory
  | nameTooLong
  /-- The path contains the character zero. -/
  | zeroInPath
  /-- What was to be text is no text. -/
  | notText
deriving DecidableEq, Repr, Inhabited

/-- The wording of a file error. -/
def FileError.message : FileError → String
  | notFound => "No such file or directory (os error 2)"
  | permissionDenied => "Permission denied (os error 13)"
  | .exists => "File exists (os error 17)"
  | notADirectory => "Not a directory (os error 20)"
  | isADirectory => "Is a directory (os error 21)"
  | nameTooLong => "File name too long (os error 36)"
  | zeroInPath => "file name contained an unexpected NUL byte"
  | notText => "stream did not contain valid UTF-8"

/-- What stands at a place. -/
inductive FileTree where
  /-- A file with its contents. -/
  | file (bytes : List UInt8)
  /-- A directory with its entries, in the order in which they are listed. -/
  | dir (entries : List (String × FileTree))
  /-- A file or a directory that may not be opened. -/
  | locked (isDirectory : Bool)
  /-- Something else, such as a device, and what comes of reading it. -/
  | other (contents : Except FileError (List UInt8))

namespace FileTree

instance : Inhabited FileTree := ⟨.dir []⟩

/-- What the file system calls the thing at a place. -/
inductive Kind where
  | file
  | directory
  | other
deriving DecidableEq, Repr, Inhabited

/-- The kind of a tree. -/
def kind : FileTree → Kind
  | file _ | locked false => .file
  | dir _ | locked true => .directory
  | other _ => .other

/-- The entries of a directory. -/
def entries? : FileTree → Option (List (String × FileTree))
  | dir es => some es
  | _ => none

/-- What is found below a tree, name by name. -/
def get? : FileTree → List String → Option FileTree
  | t, [] => some t
  | dir es, n :: rest => (Table.get? es n).bind fun t => get? t rest
  | _, _ :: _ => none

/-- The entries of a directory with something under a name. -/
def enter (es : List (String × FileTree)) (n : String) (t : FileTree) : List (String × FileTree) :=
  if Table.contains es n then Table.replace es n t else Table.insert es n t

/-- Puts a tree below another one, name by name. Missing directories are made, and a file that
stands where a directory is needed gives way to it. -/
def put : FileTree → List String → FileTree → FileTree
  | _, [], new => new
  | t, n :: rest, new =>
    let es := t.entries?.getD []
    dir (enter es n (put ((Table.get? es n).getD (dir [])) rest new))

/-- Removes what stands below a tree, name by name. -/
def remove : FileTree → List String → FileTree
  | dir es, [] => dir es
  | dir es, [n] => dir (Table.erase es n)
  | dir es, n :: rest =>
    match Table.get? es n with
    | some t => dir (enter es n (remove t rest))
    | none => dir es
  | t, _ => t

end FileTree

/-- A tree of files and the directory that relative paths start from. -/
structure Files where
  root : FileTree
  /-- The names that lead from the root to the working directory. -/
  home : List String
deriving Inhabited

namespace Files

/-- The greatest length of a name, in bytes. -/
def maxNameLength : Nat := 255

/-- The length that a path stays below, in bytes. -/
def pathLengthBound : Nat := 4096

/-- Follows segments from a directory; the names of the way to it stand in reverse. -/
def follow (root : FileTree) : List String → List String → Except FileError (List String)
  | way, [] => .ok way
  | way, s :: rest =>
    match root.get? way.reverse with
    | some (.dir es) =>
      if s = "" ∨ s = "." then follow root way rest
      else if s = ".." then follow root way.tail rest
      else if maxNameLength < s.utf8ByteSize then .error .nameTooLong
      else if Table.contains es s then follow root (s :: way) rest
      else .error .notFound
    | some (.locked true) =>
      if s = "" then follow root way rest else .error .permissionDenied
    | _ => .error .notADirectory

/-- Whether a path can be looked for at all. -/
def checkPath (p : Path) : Except FileError Unit :=
  if p.text.toList.contains '\x00' then .error .zeroInPath
  else if p.text.isEmpty then .error .notFound
  else if pathLengthBound ≤ p.text.utf8ByteSize then .error .nameTooLong
  else .ok ()

/-- Where a path starts, in reverse. -/
def start (f : Files) (p : Path) : List String := if p.isAbsolute then [] else f.home.reverse

/-- The names that lead from the root to what a path means. -/
def locate (f : Files) (p : Path) : Except FileError (List String) := do
  checkPath p
  let way ← follow f.root (f.start p) p.segments
  pure way.reverse

/-- What a path means. -/
def find (f : Files) (p : Path) : Except FileError FileTree := do
  match f.root.get? (← f.locate p) with
  | some t => pure t
  | none => .error .notFound

/-- Whether a path leads to something. -/
def contains (f : Files) (p : Path) : Bool := (f.find p).toOption.isSome

/-- The entries of a directory. -/
def entries? (f : Files) (p : Path) : Option (List (String × FileTree)) :=
  (f.find p).toOption.bind FileTree.entries?

/-- The names in a directory and what they stand for, in the order in which they are listed. -/
def list (f : Files) (p : Path) : Except FileError (List (String × FileTree.Kind)) := do
  match ← f.find p with
  | .dir es => pure (es.map fun e => (e.1, e.2.kind))
  | .locked true => .error .permissionDenied
  | _ => .error .notADirectory

/-- Whether a path leads to a directory. -/
def isDirectory (f : Files) (p : Path) : Bool :=
  match f.find p with
  | .ok t => t.kind == .directory
  | .error _ => false

/-- The contents of a file. -/
def read (f : Files) (p : Path) : Except FileError (List UInt8) := do
  match ← f.find p with
  | .file bytes => pure bytes
  | .dir _ => .error .isADirectory
  | .locked _ => .error .permissionDenied
  | .other contents => contents

/-- The contents of a file that is text. -/
def readText (f : Files) (p : Path) : Except FileError String := do
  match Text.Utf8.decode (← f.read p) with
  | .ok s => pure s
  | .error _ => .error .notText

/-- The names that a path means, from the root, whether or not something is there. -/
def namesOf (f : Files) (p : Path) : List String :=
  (p.segments.foldl (fun way s =>
    if s = "" ∨ s = "." then way else if s = ".." then way.tail else s :: way)
    (f.start p)).reverse

/-- Puts a file or a directory at a path, and the directories that lead there. -/
def put (f : Files) (p : Path) (t : FileTree) : Files :=
  { f with root := f.root.put (f.namesOf p) t }

/-- Removes what stands at a path. -/
def remove (f : Files) (p : Path) : Files := { f with root := f.root.remove (f.namesOf p) }

/-- Makes a directory and those that lead there, as far as they are missing; something else in
their place is an error. The names of the way so far stand in reverse. -/
def makeDirectoryFrom (f : Files) : List String → List String → Except FileError Files
  | way, [] =>
    match f.root.get? way.reverse with
    | some t => if t.kind = .directory then .ok f else .error .exists
    | none => .ok { f with root := f.root.put way.reverse (.dir []) }
  | way, s :: rest =>
    match f.root.get? way.reverse with
    | some (.dir _) | none =>
      if maxNameLength < s.utf8ByteSize then .error .nameTooLong
      else makeDirectoryFrom f (s :: way) rest
    | some (.locked true) => .error .permissionDenied
    | some _ => .error .notADirectory

/-- Makes a directory and those that lead there. No path means no directory. -/
def makeDirectory (f : Files) (p : Path) : Except FileError Files :=
  if p.text.isEmpty then .ok f
  else do
    checkPath p
    makeDirectoryFrom f [] (f.namesOf p)

/-- Opens a file for writing at its end, making it if it is missing. -/
def openForAppending (f : Files) (p : Path) : Except FileError Files :=
  match f.find p with
  | .ok (.file _) => .ok f
  | .ok (.dir _) | .ok (.locked true) => .error .isADirectory
  | .ok (.locked false) => .error .permissionDenied
  | .ok (.other contents) => contents.map fun _ => f
  | .error .notFound =>
    match p.directory?, p.fileName? with
    | some d, some _ =>
      match f.find (if d.text.isEmpty then ⟨"."⟩ else d) with
      | .ok (.dir _) => .ok (f.put p (.file []))
      | .ok (.locked true) => .error .permissionDenied
      | .ok _ => .error .notADirectory
      | .error e => .error e
    | _, _ => .error .isADirectory
  | .error e => .error e

end Files

end ScriptedActions
