/-!
# Patterns

The patterns that the value of a field is matched against are regular expressions. Here they are
only checked: a pattern that cannot be built is refused before any event is seen.

`Pattern.check` goes through a pattern once and keeps what later characters depend on: the groups
that are open, whether there is something to repeat, the names of groups. The names of classes of
characters, as in `\p` followed by a name in braces, are not looked up.
-/

set_option autoImplicit false

namespace ScriptedActions.Logging

/-- Why a pattern is refused. -/
inductive PatternError where
  /-- It is no regular expression. -/
  | malformed
  /-- It asks for the ends of words, which are not told apart here. -/
  | wordBoundary
deriving DecidableEq, Repr, Inhabited

/-- The wording of a pattern error. -/
def PatternError.message : PatternError → String
  | malformed => "error building NFA"
  | wordBoundary =>
    "unsupported regex feature for DFAs: cannot build DFAs for regexes with Unicode word " ++
      "boundaries; switch to ASCII word boundaries, or heuristically enable Unicode word " ++
      "boundaries or use a different regex engine"

namespace Pattern

/-! ## Escapes

A function that reads a part at the begin of a text gives what the part is and what is left; none
where the text has no such part. -/

/-- What an escape stands for. -/
inductive Escaped where
  | char (c : Char)
  /-- Any of several characters. -/
  | oneOf
  /-- An end of the text. -/
  | edge
  /-- An end of a word, or the opposite. -/
  | wordEdge
deriving DecidableEq, Repr

/-- The value of a hexadecimal digit. -/
def hexDigit? (c : Char) : Option Nat :=
  if c.isDigit then some (c.toNat - 48)
  else if 'a' ≤ c ∧ c ≤ 'f' then some (c.toNat - 87)
  else if 'A' ≤ c ∧ c ≤ 'F' then some (c.toNat - 55)
  else none

/-- The character of a code in hexadecimal digits. -/
def character? (digits : List Char) : Option Char := do
  if digits.isEmpty then none
  else
    let n ← digits.foldlM (fun n c => do pure (n * 16 + (← hexDigit? c))) 0
    if h : n.isValidChar then some (Char.ofNatAux n h) else none

/-- What stands in front of a closing mark. -/
def upTo (mark : Char) (cs : List Char) : Option (List Char × List Char) :=
  match cs.dropWhile (· != mark) with
  | _ :: rest => some (cs.takeWhile (· != mark), rest)
  | [] => none

/-- A code in braces, or of a number of digits. -/
def hex (width : Nat) : List Char → Option (Escaped × List Char)
  | '\x7b' :: cs => do
    let (digits, rest) ← upTo '\x7d' cs
    pure (.char (← character? digits), rest)
  | cs =>
    if cs.length < width then none
    else (character? (cs.take width)).map fun c => (.char c, cs.drop width)

/-- The name of a class of characters: in braces, or one letter. -/
def className : List Char → Option (Escaped × List Char)
  | '\x7b' :: cs => do
    let (name, rest) ← upTo '\x7d' cs
    if name.isEmpty then none else some (.oneOf, rest)
  | c :: rest => if c.isAlpha then some (.oneOf, rest) else none
  | [] => none

/-- An escape, behind its backslash. -/
def escape : List Char → Option (Escaped × List Char)
  | [] => none
  | c :: rest =>
    match c with
    | 'x' => hex 2 rest
    | 'u' => hex 4 rest
    | 'U' => hex 8 rest
    | 'p' | 'P' => className rest
    | 'd' | 'D' | 's' | 'S' | 'w' | 'W' => some (.oneOf, rest)
    | 'a' => some (.char '\x07', rest)
    | 'f' => some (.char '\x0c', rest)
    | 't' => some (.char '\t', rest)
    | 'n' => some (.char '\n', rest)
    | 'r' => some (.char '\r', rest)
    | 'v' => some (.char '\x0b', rest)
    | 'A' | 'z' => some (.edge, rest)
    | 'b' | 'B' | '<' | '>' => some (.wordEdge, rest)
    | c => if c.toNat < 128 ∧ !c.isAlphanum then some (.char c, rest) else none

/-! ## Classes of characters in brackets -/

/-- The named classes that brackets can hold. -/
def bracketNames : List String :=
  ["alnum", "alpha", "ascii", "blank", "cntrl", "digit", "graph", "lower", "print", "punct",
   "space", "upper", "word", "xdigit"]

/-- A named class, behind its bracket. -/
def namedClass : List Char → Option (Unit × List Char)
  | ':' :: cs => do
    let (name, rest) ← upTo ':' (if cs.head? = some '^' then cs.tail else cs)
    if rest.head? = some ']' ∧ bracketNames.contains (String.ofList name) then
      some ((), rest.tail)
    else none
  | _ => none

/-- What is left behind the begin of a class: a mark for the opposite, then dashes or a closing
bracket that stand for themselves. -/
def behindOpening (cs : List Char) : List Char :=
  let cs := if cs.head? = some '^' then cs.tail else cs
  let behind := cs.dropWhile (· == '-')
  if behind.length = cs.length ∧ cs.head? = some ']' then cs.tail else behind

/-- One item of a class: a character, or none if it is several. -/
def classItem : List Char → Option (Option Char × List Char)
  | '\\' :: cs =>
    match escape cs with
    | some (.char c, rest) => some (some c, rest)
    | some (.oneOf, rest) => some (none, rest)
    | _ => none
  | c :: rest => some (some c, rest)
  | [] => none

/-- What is left behind a class of characters, of which `depth + 1` are open. -/
def behindClass : Nat → Nat → List Char → Option (List Char)
  | 0, _, _ => none
  | fuel + 1, depth, cs =>
    match cs with
    | [] => none
    | ']' :: rest => if depth = 0 then some rest else behindClass fuel (depth - 1) rest
    | '[' :: rest =>
      match namedClass rest with
      | some (_, rest) => behindClass fuel depth rest
      | none => behindClass fuel (depth + 1) (behindOpening rest)
    | '&' :: '&' :: rest | '-' :: '-' :: rest | '~' :: '~' :: rest => behindClass fuel depth rest
    | cs => do
      let (first, rest) ← classItem cs
      match rest with
      | '-' :: ']' :: _ | '-' :: '-' :: _ => behindClass fuel depth rest
      | '-' :: rest =>
        let (last, rest) ← classItem rest
        match first, last with
        | some a, some b => if a ≤ b then behindClass fuel depth rest else none
        | _, _ => none
      | rest => behindClass fuel depth rest

/-! ## Groups and repetitions -/

/-- Whether a character can stand in the name of a group. -/
def isNameChar (isFirst : Bool) (c : Char) : Bool :=
  c == '_' || c.isAlpha || (!isFirst && (c == '.' || c == '[' || c == ']' || c.isDigit))

/-- The name of a group, behind its bracket. -/
def groupName (cs : List Char) : Option (String × List Char) := do
  let (name, rest) ← upTo '>' cs
  match name with
  | c :: others =>
    if isNameChar true c ∧ others.all (isNameChar false) then some (String.ofList name, rest)
    else none
  | [] => none

/-- Flags: letters, none of them twice, of which those behind a dash are switched off. -/
def areFlags (cs : List Char) : Bool :=
  cs.all (fun c => c == '-' || "imsUuRx".contains c) && cs.Nodup && cs.getLast? != some '-'

/-- The begin of a group, behind its parenthesis. -/
inductive Opening where
  /-- A group, with its name if it has one. -/
  | group (name : Option String)
  /-- Flags for what follows. -/
  | flags
deriving DecidableEq, Repr

/-- Reads the begin of a group, behind its parenthesis. -/
def opening : List Char → Option (Opening × List Char)
  | '?' :: 'P' :: '<' :: rest => (groupName rest).map fun (n, rest) => (.group (some n), rest)
  | '?' :: '<' :: rest => (groupName rest).map fun (n, rest) => (.group (some n), rest)
  | '?' :: rest =>
    let letters := rest.takeWhile fun c => c != ':' && c != ')'
    if !areFlags letters then none
    else
      match rest.drop letters.length with
      | ':' :: rest => some (.group none, rest)
      | ')' :: rest => if letters.isEmpty then none else some (.flags, rest)
      | _ => none
  | rest => some (.group none, rest)

/-- A number of repetitions. -/
def repetitions? (cs : List Char) : Option Nat :=
  if cs.isEmpty ∨ !cs.all Char.isDigit then none
  else
    let n := cs.foldl (fun n c => n * 10 + (c.toNat - 48)) 0
    if n ≤ 0xffffffff then some n else none

/-- What is left behind the bounds of a repetition, which stand in braces. -/
def behindBounds (cs : List Char) : Option (List Char) := do
  let (bounds, rest) ← upTo '\x7d' cs
  let low ← repetitions? (bounds.takeWhile (· != ','))
  match bounds.dropWhile (· != ',') with
  | [] | [','] => some rest
  | _ :: high => do
    let high ← repetitions? high
    if low ≤ high then some rest else none

/-! ## Checking -/

/-- What is known of the part of a pattern that has been read. -/
structure Progress where
  openGroups : Nat
  /-- Whether there is something that a repetition can be about. -/
  repeatable : Bool
  names : List String
  wordEdges : Bool

/-- Reads a pattern to its end. -/
def finish : Nat → Progress → List Char → Option Progress
  | 0, _, _ => none
  | fuel + 1, p, cs =>
    match cs with
    | [] => if p.openGroups = 0 then some p else none
    | '(' :: rest => do
      match ← opening rest with
      | (.flags, rest) => finish fuel { p with repeatable := false } rest
      | (.group name, rest) =>
        if name.any p.names.contains then none
        else
          finish fuel
            { p with
              openGroups := p.openGroups + 1
              repeatable := false
              names := name.toList ++ p.names } rest
    | ')' :: rest =>
      if p.openGroups = 0 then none
      else finish fuel { p with openGroups := p.openGroups - 1, repeatable := true } rest
    | '|' :: rest => finish fuel { p with repeatable := false } rest
    | '[' :: rest => do
      finish fuel { p with repeatable := true } (← behindClass fuel 0 (behindOpening rest))
    | '*' :: rest | '+' :: rest | '?' :: rest =>
      if p.repeatable then finish fuel p rest else none
    | '\x7b' :: rest => do
      if p.repeatable then finish fuel p (← behindBounds rest) else none
    | '\\' :: rest => do
      let (e, rest) ← escape rest
      finish fuel { p with repeatable := true, wordEdges := p.wordEdges || e == .wordEdge } rest
    | _ :: rest => finish fuel { p with repeatable := true } rest

/-- Checks a pattern. -/
def check (s : String) : Except PatternError Unit :=
  match finish (s.length + 1) ⟨0, false, [], false⟩ s.toList with
  | none => .error .malformed
  | some p => if p.wordEdges then .error .wordBoundary else .ok ()

end Pattern

end ScriptedActions.Logging
