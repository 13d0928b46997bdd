import ScriptedActions.Text.Visible

/-!
# Quoted text

Text between quotes, as diagnostics and the display of script values show it: quotes and
backslashes are escaped, the usual controls have short escapes, and every other character that
does not show is written by its code point.
-/

set_option autoImplicit false

namespace ScriptedActions.Text

/-- The escape of a character inside quotes of the kind `quote`. -/
def escapeChar (quote : Char) (c : Char) : String :=
  if c == '\t' then "\\t"
  else if c == '\n' then "\\n"
  else if c == '\r' then "\\r"
  else if c == '\\' then "\\\\"
  else if c.toNat == 0 then "\\0"
  else if c == quote then "\\" ++ c.toString
  else if shows c then c.toString
  else "\\u\x7b" ++ String.ofList (Nat.toDigits 16 c.toNat) ++ "\x7d"

/-- A text in double quotes. -/
def quoted (s : String) : String :=
  s.foldl (fun t c => t ++ escapeChar '"' c) "\"" ++ "\""

/-- A character in single quotes. -/
def quotedChar (c : Char) : String := "'" ++ escapeChar '\'' c ++ "'"

end ScriptedActions.Text
