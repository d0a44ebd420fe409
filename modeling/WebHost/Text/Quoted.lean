import WebHost.Number.Numeral
import WebHost.Text.Unicode.Printable

/-!
# Quoted text

Reports show a text between quotes: quotes and backslashes are escaped, line breaks, tabs and the
zero character have short escapes, and a character without a glyph is shown by its number.
-/

set_option autoImplicit false

namespace WebHost.Text

/-- A character as it stands between quotes. -/
def showChar (c : Char) : String :=
  if c = '"' then "\\\""
  else if c = '\\' then "\\\\"
  else if c = '\n' then "\\n"
  else if c = '\r' then "\\r"
  else if c = '\t' then "\\t"
  else if c.toNat = 0 then "\\0"
  else if Unicode.isPrintable c then String.singleton c
  else "\\u\x7b" ++ Numeral.hex c.toNat ++ "\x7d"

/-- A text between quotes. -/
def quoted (text : String) : String :=
  "\"" ++ String.join (text.toList.map showChar) ++ "\""

/-- A row of quoted texts between brackets. -/
def quotedRow (texts : List String) : String :=
  "[" ++ String.intercalate ", " (texts.map quoted) ++ "]"

end WebHost.Text
