import ScriptedActions.Script.Place

/-!
# Tokens

The words of a script: literals, names, reserved words, and the operators, brackets and
keywords, which are told apart by their spelling alone. A word that is none of these is a token
too, one that carries the fault; the fault counts when the parser gets there.
-/

set_option autoImplicit false

namespace ScriptedActions.Script

/-- What is wrong with a word. -/
inductive WordFault where
  | unexpected (s : String)
  | openString
  | longString (limit : Nat)
  | badEscape (s : String)
  | badNumber (s : String)
  | badChar (s : String)
  | badName (s : String)
  /-- A symbol of another language, with advice. -/
  | improper (advice : String)
deriving DecidableEq, Repr, Inhabited

/-- A word of a script. -/
inductive Token where
  | int (n : Int64)
  | float (x : Float)
  | char (c : Char)
  | text (s : String)
  /-- A piece of text in front of an embedded block. -/
  | template (s : String)
  | name (s : String)
  | reserved (s : String)
  | symbol (s : String)
  | bad (fault : WordFault)
  | eof
deriving Repr, Inhabited

/-- A token and where it starts. -/
structure Word where
  token : Token
  place : Place
deriving Repr, Inhabited

/-- Keywords, which are symbols with letters. -/
def keywords : List String :=
  ["true", "false", "let", "const", "if", "else", "switch", "do", "while", "until", "loop", "for",
   "in", "fn", "continue", "break", "return", "throw", "try", "catch", "private", "import",
   "export", "as"]

/-- Words that cannot name anything: some are functions, the others are kept for later. -/
def reservedWords : List String :=
  ["var", "static", "begin", "end", "shared", "each", "then", "goto", "unless", "match",
   "case", "default", "void", "null", "nil", "public", "protected", "new", "use", "module",
   "package", "super", "spawn", "thread", "go", "sync", "async", "await", "yield", "with", "is",
   "print", "debug", "type_of", "eval", "Fn", "call", "curry", "this", "is_def_fn", "is_def_var",
   "is_shared"]

/-- Reserved words that can be called as functions. -/
def callableWords : List String :=
  ["print", "debug", "type_of", "eval", "Fn", "call", "curry", "is_def_fn", "is_def_var",
   "is_shared"]

/-- Reserved words that can be called as methods. -/
def methodWords : List String := ["type_of", "call", "curry", "is_shared"]

/-- Advice on symbols of other languages; the other reserved symbols go without. -/
def advice : String → Option String
  | "===" => some "'===' is not a valid operator. This is not JavaScript! Should it be '=='?"
  | "!==" => some "'!==' is not a valid operator. This is not JavaScript! Should it be '!='?"
  | "->" => some "'->' is not a valid symbol. This is not C or C++!"
  | "<-" => some "'<-' is not a valid symbol. This is not Go! Should it be '<='?"
  | ":=" => some
      "':=' is not a valid assignment operator. This is not Go or Pascal! Should it be simply '='?"
  | ":;" => some "':;' is not a valid symbol. Should it be '::'?"
  | "::<" => some "'::<>' is not a valid symbol. This is not Rust! Should it be '::'?"
  | "(*" => some "'(* .. *)' is not a valid comment format. This is not Pascal! Should it be '/* .. */'?"
  | "*)" => some "'(* .. *)' is not a valid comment format. This is not Pascal! Should it be '/* .. */'?"
  | "# \x7b" => some "'#' is not a valid symbol. Should it be '#\x7b'?"
  | _ => none

/-- Whether a character can start a name, underscores apart. -/
def isLetter (c : Char) : Bool := ('a' ≤ c && c ≤ 'z') || ('A' ≤ c && c ≤ 'Z')

/-- Whether a character is a decimal digit. -/
def isDigit (c : Char) : Bool := '0' ≤ c && c ≤ '9'

/-- Whether a character can stand inside a name. -/
def isNameChar (c : Char) : Bool := isLetter c || isDigit c || c == '_'

/-- Whether a text is a name: letters, digits and underscores, of which the first that is no
underscore is a letter. -/
def isName (s : String) : Bool :=
  s.toList.all isNameChar &&
    ((s.toList.dropWhile (· == '_')).head?.map isLetter |>.getD false)

/-- The spelling of a token, as diagnostics show it. -/
def Token.spelling : Token → String
  | int n => toString n.toInt
  | float _ => "float"
  | char c => c.toString
  | text s | template s | name s | reserved s | symbol s => s
  | bad _ => ""
  | eof => "\x7bEOF\x7d"

/-- Whether a sign behind this token belongs to the number that follows it. -/
def Token.allowsSign : Token → Bool
  | symbol s =>
    [";", ":", ",", "??", "..", "..=", "\x7b", "(", "[", "+", "+=", "-", "-=", "*", "*=", "/", "/=",
     "%", "%=", "**", "**=", "<<", "<<=", ">>", ">>=", "=", "==", "!=", "<", ">", "<=", ">=", "!",
     "|", "||", "|=", "^", "^=", "&", "&&", "&=", "if", "while", "until", "in", "!in", "return",
     "throw"].contains s
  | bad _ => true
  | _ => false

end ScriptedActions.Script
