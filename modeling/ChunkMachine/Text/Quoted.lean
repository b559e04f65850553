import ChunkMachine.Text.Columns
import ChunkMachine.Text.Printable

/-!
# Quoted text

Messages quote the text they complain about. The quotes are single unless the text has a single quote
and no double one. Backslash, the quote in use and the characters that cannot be printed are escaped.
-/

namespace ChunkMachine.Text

/-- The digits of a number in base sixteen, in small letters, filled with zeros. -/
def smallHex (width n : Nat) : String := padLeft width '0' (String.ofList (Nat.toDigits 16 n))

/-- The escape of a character by its code point, in the shortest of three forms. -/
def codeEscape (c : Char) : String :=
  if c.toNat < 0x100 then "\\x" ++ smallHex 2 c.toNat
  else if c.toNat < 0x10000 then "\\u" ++ smallHex 4 c.toNat
  else "\\U" ++ smallHex 8 c.toNat

/-- A character inside quotes. -/
def quoteChar (mark : Char) (c : Char) : String :=
  if c == mark || c == '\\' then "\\" ++ c.toString
  else if c == '\n' then "\\n"
  else if c == '\x0d' then "\\r"
  else if c == '\t' then "\\t"
  else if isPrintable c then c.toString
  else codeEscape c

/-- The quotes that a text is put in. -/
def quoteMark (s : String) : Char :=
  if s.toList.contains '\'' && !s.toList.contains '"' then '"' else '\''

/-- A text in quotes. -/
def quoted (s : String) : String :=
  let mark := quoteMark s
  mark.toString ++ String.join (s.toList.map (quoteChar mark)) ++ mark.toString

end ChunkMachine.Text
