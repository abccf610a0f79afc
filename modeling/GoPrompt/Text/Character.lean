import GoPrompt.Text.Numeral
import GoPrompt.Unicode.Printable

/-! How a message shows a single character: in quotes, with a name or a number in place of a character
that would not be seen. -/

namespace GoPrompt.Text

/-- A character as it stands inside the quotes of `quoted`. -/
def escaped (c : Char) : String :=
  if c = '\x00' then "\\0"
  else if c = '\t' then "\\t"
  else if c = '\n' then "\\n"
  else if c = '\r' then "\\r"
  else if c = '\\' then "\\\\"
  else if c = '\x27' then "\\'"
  else if Unicode.isCombining c || !Unicode.isPrintable c then "\\u\x7b" ++ hexadecimal 0 c.toNat ++ "\x7d"
  else c.toString

/-- A character in single quotes. -/
def quoted (c : Char) : String := "'" ++ escaped c ++ "'"

end GoPrompt.Text
