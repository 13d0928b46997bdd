import ScriptedActions.Json.Reader

/-!
# The grammar of JSON

What a JSON text says, apart from how it is read: a `Tree` has the literals of a text as they are
written, `Spells` says which characters spell a tree, and `Reads` which value a tree stands for.

A tree keeps more than a value does. It has every member of an object, in their order, although
only the last member of a name counts, and a number is still its digits. So a statement about
the literals of a text is a statement about its tree.

**Nothing here looks at a reader.** Texts that are too deep, numbers that are too large and
surrogates without their other half are spelled like anything else; that they stand for no value,
or are refused, is a matter of reading them.
-/

set_option autoImplicit false

namespace ScriptedActions.Json

open Reader (isBlank isDigit digitValue hexValue simpleEscape)

/-! ## Trees -/

/-- The exponent of a number: its mark, its sign if it has one, and its digits. -/
structure Exponent where
  mark : Char
  sign : Option Char
  digits : List Char

/-- A number as it is written. -/
structure Literal where
  negative : Bool
  whole : List Char
  fraction : Option (List Char)
  exponent : Option Exponent

/-- A part of a string as it is written: a character that stands for itself, an escape, or a code
unit in four hexadecimal digits. -/
inductive Piece where
  | plain (c : Char)
  | escape (c : Char)
  | unit (digits : List Char)

/-- A JSON text with its literals. -/
inductive Tree where
  | null
  | bool (b : Bool)
  | number (l : Literal)
  | string (pieces : List Piece)
  | array (items : List Tree)
  | object (members : List (List Piece × Tree))

/-! ## Spelling -/

namespace Exponent

/-- The characters of an exponent. -/
def text (e : Exponent) : List Char := e.mark :: e.sign.toList ++ e.digits

structure WellFormed (e : Exponent) : Prop where
  mark : e.mark = 'e' ∨ e.mark = 'E'
  sign : ∀ s ∈ e.sign, s = '+' ∨ s = '-'
  digits : ∀ c ∈ e.digits, isDigit c
  nonempty : e.digits ≠ []

end Exponent

namespace Literal

/-- The characters behind the whole part of a number. -/
def tail (l : Literal) : List Char :=
  l.fraction.elim [] ('.' :: ·) ++ l.exponent.elim [] Exponent.text

/-- The characters of a number. -/
def text (l : Literal) : List Char := (if l.negative then ['-'] else []) ++ l.whole ++ l.tail

structure WellFormed (l : Literal) : Prop where
  whole : ∀ c ∈ l.whole, isDigit c
  nonempty : l.whole ≠ []
  /-- A whole part of several digits does not start with a zero. -/
  leading : l.whole.head? = some '0' → l.whole = ['0']
  fraction : ∀ ds ∈ l.fraction, ds ≠ [] ∧ ∀ c ∈ ds, isDigit c
  exponent : ∀ e ∈ l.exponent, e.WellFormed

end Literal

namespace Piece

/-- The characters of a part of a string. -/
def text : Piece → List Char
  | plain c => [c]
  | escape c => ['\\', c]
  | unit digits => '\\' :: 'u' :: digits

def WellFormed : Piece → Prop
  | plain c => c ≠ '"' ∧ c ≠ '\\' ∧ 0x20 ≤ c.toNat
  | escape c => (simpleEscape c).isSome
  | unit digits => digits.length = 4 ∧ (hexValue digits).isSome

end Piece

/-- Blanks and nothing else. -/
def Blanks (cs : List Char) : Prop := ∀ c ∈ cs, isBlank c

/-- The characters of a string with its quotes. -/
def quoted (pieces : List Piece) : List Char := '"' :: pieces.flatMap Piece.text ++ ['"']

/-- What stands in front of an item or a member: blanks, and a comma among them unless it is the
first one. -/
inductive Separates : Bool → List Char → Prop
  | first {a : List Char} : Blanks a → Separates true a
  | next {b a : List Char} : Blanks b → Blanks a → Separates false (b ++ ',' :: a)

mutual

/-- Characters spell a tree, without blanks around it. -/
inductive Spells : Tree → List Char → Prop
  | null : Spells .null ['n', 'u', 'l', 'l']
  | true : Spells (.bool true) ['t', 'r', 'u', 'e']
  | false : Spells (.bool false) ['f', 'a', 'l', 's', 'e']
  | number {l : Literal} : l.WellFormed → Spells (.number l) l.text
  | string {pieces : List Piece} : (∀ p ∈ pieces, p.WellFormed) →
    Spells (.string pieces) (quoted pieces)
  | array {ts : List Tree} {ds : List Char} : SpellsItems true ts ds →
    Spells (.array ts) ('[' :: (ds ++ [']']))
  | object {ms : List (List Piece × Tree)} {ds : List Char} : SpellsMembers true ms ds →
    Spells (.object ms) ('\x7b' :: (ds ++ ['\x7d']))

/-- The items of an array up to its end, from the first one or from a later one on. -/
inductive SpellsItems : Bool → List Tree → List Char → Prop
  | nil {first : Bool} {b : List Char} : Blanks b → SpellsItems first [] b
  | cons {first : Bool} {a cs ds : List Char} {t : Tree} {ts : List Tree} : Separates first a →
    Spells t cs → SpellsItems false ts ds → SpellsItems first (t :: ts) (a ++ (cs ++ ds))

/-- A member of an object: a name, a colon and a value. -/
inductive SpellsMember : List Piece × Tree → List Char → Prop
  | intro {b a cs : List Char} {pieces : List Piece} {t : Tree} :
    (∀ p ∈ pieces, p.WellFormed) → Blanks b → Blanks a → Spells t cs →
    SpellsMember (pieces, t) (quoted pieces ++ (b ++ ':' :: (a ++ cs)))

/-- The members of an object up to its end, from the first one or from a later one on. -/
inductive SpellsMembers : Bool → List (List Piece × Tree) → List Char → Prop
  | nil {first : Bool} {b : List Char} : Blanks b → SpellsMembers first [] b
  | cons {first : Bool} {a cs ds : List Char} {m : List Piece × Tree}
    {ms : List (List Piece × Tree)} : Separates first a → SpellsMember m cs →
    SpellsMembers false ms ds → SpellsMembers first (m :: ms) (a ++ (cs ++ ds))

end

/-- A text spells a tree, with blanks around it. -/
def IsText (t : Tree) (text : String) : Prop :=
  ∃ a cs b, Blanks a ∧ Spells t cs ∧ Blanks b ∧ text.toList = a ++ (cs ++ b)

/-! ## Meaning -/

/-- The number that digits stand for, behind other digits. -/
def digitsFrom (n : Nat) (ds : List Char) : Nat := ds.foldl (fun n c => 10 * n + digitValue c) n

namespace Literal

/-- The integer that a number is, if it has neither a fraction nor an exponent. -/
def integer? (l : Literal) : Option Int :=
  match l.fraction, l.exponent with
  | none, none => some (if l.negative then -digitsFrom 0 l.whole else digitsFrom 0 l.whole)
  | _, _ => none

/-- Whether a number is an integer that a 64-bit integer holds, signed or unsigned. Minus zero is
none of these: it is a float. -/
def IsWhole (l : Literal) (z : Int) : Prop :=
  l.integer? = some z ∧ minInt ≤ z ∧ z ≤ maxNat ∧ (z = 0 → l.negative = false)

/-- The values that a number can stand for. -/
inductive Reads (l : Literal) : Json → Prop
  | int {z : Int} : l.IsWhole z → l.Reads (.int z)
  | float (x : Float) : (∀ z, ¬ l.IsWhole z) → l.Reads (.float x)

end Literal

/-- Whether a code unit is the second half of a surrogate pair. -/
def isLowSurrogate (n : Nat) : Bool := 0xDC00 ≤ n && n ≤ 0xDFFF

/-- Whether a code unit is the first half of a surrogate pair. -/
def isHighSurrogate (n : Nat) : Bool := 0xD800 ≤ n && n ≤ 0xDBFF

/-- The characters that the parts of a string stand for, if they stand for any. -/
def unescape : List Piece → Option (List Char)
  | [] => some []
  | .plain c :: ps => (unescape ps).map (c :: ·)
  | .escape c :: ps => do
    let x ← simpleEscape c
    (unescape ps).map (x :: ·)
  | .unit digits :: ps => do
    let n ← hexValue digits
    if isLowSurrogate n then none
    else if isHighSurrogate n then
      match ps with
      | .unit digits' :: ps => do
        let m ← hexValue digits'
        if isLowSurrogate m then
          (unescape ps).map (Char.ofNat ((n - 0xD800) * 1024 + (m - 0xDC00) + 0x10000) :: ·)
        else none
      | _ => none
    else (unescape ps).map (Char.ofNat n :: ·)

mutual

/-- A tree stands for a value. -/
inductive Reads : Tree → Json → Prop
  | null : Reads .null .null
  | bool (b : Bool) : Reads (.bool b) (.bool b)
  | number {l : Literal} {v : Json} : l.Reads v → Reads (.number l) v
  | string {pieces : List Piece} {cs : List Char} : unescape pieces = some cs →
    Reads (.string pieces) (.string (String.ofList cs))
  | array {ts : List Tree} {vs : List Json} : ReadsItems ts vs → Reads (.array ts) (.array vs)
  /-- Of several members of one name the last one counts. -/
  | object {ms : List (List Piece × Tree)} {es : List (String × Json)} : ReadsMembers ms es →
    Reads (.object ms) (.object (Table.ofList es))

/-- Trees stand for values, one by one. -/
inductive ReadsItems : List Tree → List Json → Prop
  | nil : ReadsItems [] []
  | cons {t : Tree} {v : Json} {ts : List Tree} {vs : List Json} : Reads t v →
    ReadsItems ts vs → ReadsItems (t :: ts) (v :: vs)

/-- Members stand for names and values, one by one. -/
inductive ReadsMembers : List (List Piece × Tree) → List (String × Json) → Prop
  | nil : ReadsMembers [] []
  | cons {pieces : List Piece} {cs : List Char} {t : Tree} {v : Json}
    {ms : List (List Piece × Tree)} {es : List (String × Json)} :
    unescape pieces = some cs → Reads t v → ReadsMembers ms es →
    ReadsMembers ((pieces, t) :: ms) ((String.ofList cs, v) :: es)

end

end ScriptedActions.Json
