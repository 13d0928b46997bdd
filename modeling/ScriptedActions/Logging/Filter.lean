import ScriptedActions.Logging.Directive

/-!
# Log filters

A filter is a list of directives. Those that ask for a span are kept apart from those that an
event alone decides; in both lists the directives that ask for more come first, and of two that
ask for the same the later one counts.
-/

set_option autoImplicit false

namespace ScriptedActions.Logging

/-- The directives of a filter. -/
structure Filter where
  statics : List Directive
  dynamics : List Directive
deriving Repr, Inhabited

namespace Filter

/-- Puts a directive in front of those that ask for less, in place of one that asks for the
same. -/
def insert (d : Directive) : List Directive → List Directive
  | [] => [d]
  | e :: rest =>
    match Directive.order d e with
    | .gt => d :: e :: rest
    | .eq => d :: rest
    | .lt => e :: insert d rest

/-- The filter of some directives; a directive that names a field alone counts in both lists. -/
def ofDirectives (ds : List Directive) : Filter :=
  let dynamics := ds.filter (·.isDynamic)
  let statics := ds.filter (!·.isDynamic) ++ dynamics.filter (·.isStatic)
  ⟨statics.foldl (fun es d => insert d es) [], dynamics.foldl (fun es d => insert d es) []⟩

/-- The parts of a text between its commas. -/
def parts (s : String) : List String :=
  let rec go : List Char → List Char → List (List Char)
    | [], part => [part.reverse]
    | c :: rest, part => if c = ',' then part.reverse :: go rest [] else go rest (c :: part)
  (go s.toList []).map String.ofList

/-- Reads a filter. Without any directive the standard level holds for all events. -/
def ofText (standard : Level) (s : String) : Except FilterError Filter := do
  let ds ← ((parts s).filter (!·.isEmpty)).mapM Directive.ofText
  if ds.isEmpty then pure (ofDirectives [.all (.upTo standard)])
  else pure (ofDirectives ds)

/-- Writes a filter. -/
def text (f : Filter) : String :=
  String.intercalate "," ((f.statics ++ f.dynamics).map Directive.text)

end Filter

end ScriptedActions.Logging
