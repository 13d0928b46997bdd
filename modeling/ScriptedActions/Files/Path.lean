import ScriptedActions.Text.Quoted

/-!
# Paths

The path of a file, as text. Its segments stand between slashes; an empty segment and a dot stand
for no step, two dots for a step up. `parts` lists the steps. What a path is called after, its
name, is the last step if that is neither a dot nor two dots.
-/

set_option autoImplicit false

namespace ScriptedActions

/-- The path of a file or directory. -/
structure Path where
  text : String
deriving DecidableEq, Repr, Inhabited

namespace Path

/-- The segments of a text between its slashes. -/
def segmentsOf : List Char → List (List Char)
  | [] => [[]]
  | c :: cs =>
    if c = '/' then [] :: segmentsOf cs
    else
      match segmentsOf cs with
      | [] => [[c]]
      | s :: rest => (c :: s) :: rest

/-- The segments of a path. -/
def segments (p : Path) : List String := (segmentsOf p.text.toList).map String.ofList

/-- Whether a path starts at the root. -/
def isAbsolute (p : Path) : Bool := p.text.toList.head? == some '/'

/-- A step of a path. -/
inductive Part where
  | root
  /-- The dot in front of a relative path. -/
  | here
  | up
  | name (n : String)
deriving DecidableEq, Repr

/-- The step that a segment means. -/
def Part.ofSegment? (isFirst : Bool) (s : String) : Option Part :=
  if s = "" then none
  else if s = "." then if isFirst then some here else none
  else if s = ".." then some up
  else some (name s)

/-- The steps of a path. -/
def parts (p : Path) : List Part :=
  match p.segments with
  | [] => []
  | s :: rest =>
    let first := if p.isAbsolute then some .root else Part.ofSegment? true s
    first.toList ++ rest.filterMap (Part.ofSegment? false)

/-- The name of a step. -/
def Part.name? : Part → Option String
  | name n => some n
  | _ => none

/-- What a path is called after. -/
def fileName? (p : Path) : Option String := p.parts.getLast?.bind Part.name?

/-- What the directory of a path is called after. -/
def directoryName? (p : Path) : Option String := p.parts.dropLast.getLast?.bind Part.name?

/-- A name in front of its last dot and behind it; a dot in front of all is none. -/
def splitName (name : String) : String × Option String :=
  let cs := name.toList
  let after := cs.reverse.takeWhile (· != '.')
  let before := cs.take (cs.length - after.length - 1)
  if cs.length = after.length ∨ before.isEmpty then (name, none)
  else (String.ofList before, some (String.ofList after.reverse))

/-- The name of a path without its extension. -/
def stem? (p : Path) : Option String := p.fileName?.map fun n => (splitName n).1

/-- The extension of a path. -/
def extension? (p : Path) : Option String := p.fileName?.bind fun n => (splitName n).2

/-- A path below another one. An absolute path stays what it is. -/
def join (p : Path) (below : String) : Path :=
  if (Path.mk below).isAbsolute then ⟨below⟩
  else
    match p.text.toList.getLast? with
    | none => ⟨below⟩
    | some '/' => ⟨p.text ++ below⟩
    | some _ => ⟨p.text ++ "/" ++ below⟩

/-- The directory of a path: the text in front of its last step, if that can be left out. -/
def directory? (p : Path) : Option Path :=
  let cs := p.text.toList
  let isSlash (c : Char) : Bool := c == '/'
  let trimmed := (cs.reverse.dropWhile isSlash)
  if trimmed.isEmpty then none
  else
    let front := trimmed.dropWhile (! isSlash ·)
    let kept := (front.dropWhile isSlash).reverse
    some ⟨String.ofList (if kept.isEmpty && !front.isEmpty then ['/'] else kept)⟩

/-- The text in reverse up to the last segment that is a step, slashes and dots behind it left
out. -/
def upToName : List Char → List Char
  | '/' :: rest => upToName rest
  | '.' :: '/' :: rest => upToName rest
  | cs => cs

/-- The path with another extension, if it is called after something. -/
def withExtension (p : Path) (extension : String) : Path :=
  match p.fileName?, p.stem? with
  | some n, some s =>
    let front := (upToName p.text.toList.reverse).drop n.length
    ⟨String.ofList front.reverse ++ s ++ (if extension.isEmpty then "" else "." ++ extension)⟩
  | _, _ => p

end Path

end ScriptedActions
