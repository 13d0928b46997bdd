import ScriptedActions.Files.FileTree

/-!
# Walks

A walk goes through a directory and what is below it, down to a depth. It comes to an entry before
it comes to what is in it, and to the entries of a directory in the order of their names, whatever
the order in which the file system lists them.

A walk offers the entries that are deep enough. One that is offered can be passed over together with
what is in it; one that is not offered cannot, so a walk always goes into the directories that are
above the depth where it starts to offer. A directory that cannot be listed is reported in the place
of its entries.
-/

set_option autoImplicit false

namespace ScriptedActions

/-- How a directory is gone through. -/
structure Walk where
  /-- Entries above this depth are not offered. The directory itself has depth zero. -/
  minDepth : Nat
  /-- Entries below this depth are not come to. -/
  maxDepth : Nat
  /-- Whether what is offered under a name, at a depth, is not passed over. -/
  keeps : Nat → String → Bool

namespace Walk

/-- Something that a walk comes to. -/
structure Entry where
  path : Path
  name : String
  depth : Nat
  kind : FileTree.Kind
deriving DecidableEq, Repr

/-- What a walk gives. -/
inductive Item where
  | entry (e : Entry)
  /-- A directory could not be listed. -/
  | unlisted (path : Path) (error : FileError)
deriving DecidableEq, Repr

variable (w : Walk)

/-- An entry in front of what is in it, as far as it is offered and kept. -/
def offer (e : Entry) (inside : List Item) : List Item :=
  if e.depth < w.minDepth then inside
  else if w.keeps e.depth e.name then .entry e :: inside
  else []

/-- The entries that stand in a directory, in the order of their names. -/
def listed (e : Entry) (names : List (String × FileTree.Kind)) : List Entry :=
  (Table.ofList names).map fun (name, kind) => ⟨e.path.join name, name, e.depth + 1, kind⟩

/-- What a walk gives from an entry on, so many levels down. -/
def visit (files : Files) : Nat → Entry → List Item
  | 0, e => w.offer e []
  | levels + 1, e =>
    w.offer e <|
      if e.kind = .directory then
        match files.list e.path with
        | .ok names => (listed e names).flatMap (visit files levels)
        | .error error => [.unlisted e.path error]
      else []

/-- What a walk through a directory gives. -/
def items (files : Files) (directory : Path) : List Item :=
  match files.find directory with
  | .ok t =>
    visit w files w.maxDepth ⟨directory, directory.fileName?.getD directory.text, 0, t.kind⟩
  | .error error => [.unlisted directory error]

end Walk

end ScriptedActions
