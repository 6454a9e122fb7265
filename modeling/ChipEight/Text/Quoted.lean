import ChipEight.Text.Numeral
import ChipEight.Text.Printable

/-! # Quoted text
A text between single quotes, or between double quotes when it holds a single quote and no double one.
The backslash, the closing quote and every unprintable character are escaped. -/
namespace ChipEight.Text

def enclosingQuote (s : List Char) : Char :=
  if s.contains '\x27' && !s.contains '\x22' then '\x22' else '\x27'

/-- The written form of one character of a text enclosed by `quote`. -/
def escaped (quote c : Char) : String :=
  if c = quote || c = '\\' then String.ofList ['\\', c]
  else if c = '\n' then "\\n"
  else if c = '\r' then "\\r"
  else if c = '\t' then "\\t"
  else if isPrintable c then String.singleton c
  else if c.toNat < 0x100 then "\\x" ++ hex 2 c.toNat
  else if c.toNat < 0x10000 then "\\u" ++ hex 4 c.toNat
  else "\\U" ++ hex 8 c.toNat

def quoted (s : String) : String :=
  let quote := enclosingQuote s.toList
  String.singleton quote ++ String.join (s.toList.map (escaped quote)) ++ String.singleton quote

end ChipEight.Text
