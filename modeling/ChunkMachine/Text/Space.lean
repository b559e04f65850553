import ChunkMachine.Text.CharClass

/-!
# White space and lines

White space is the Unicode property, together with the four separators `U+001C` to `U+001F`. A text
breaks into lines at any of ten characters; a carriage return with a line feed after it is one break.
-/

namespace ChunkMachine.Text

/-- The white space characters. -/
def spaces : CharClass :=
  [0x9, 0xE, 0x1C, 0x21, 0x85, 0x86, 0xA0, 0xA1, 0x1680, 0x1681, 0x2000, 0x200B, 0x2028, 0x202A,
   0x202F, 0x2030, 0x205F, 0x2060, 0x3000, 0x3001]

/-- Is the character white space? -/
def isSpace (c : Char) : Bool := spaces.has c

/-- A list of characters without the white space before it. -/
def dropSpaces (cs : List Char) : List Char := cs.dropWhile isSpace

/-- A text without the white space after it. -/
def stripRight (s : String) : String :=
  String.ofList (dropSpaces s.toList.reverse).reverse

/-- A text without the white space around it. -/
def strip (s : String) : String :=
  String.ofList (dropSpaces (dropSpaces s.toList).reverse).reverse

/-- The words of a list of characters, separated by white space; `word` holds the characters of the
word being read, last first. -/
def splitSpaces : (word : List Char) → List Char → List String
  | [], [] => []
  | word, [] => [String.ofList word.reverse]
  | word, c :: cs =>
    if isSpace c then
      if word.isEmpty then splitSpaces [] cs
      else String.ofList word.reverse :: splitSpaces [] cs
    else splitSpaces (c :: word) cs

/-! ### Lines -/

/-- The characters that end a line: line feed to carriage return, the file, group and record
separators, next line, line separator and paragraph separator. -/
def lineBreaks : CharClass := [0x0A, 0x0E, 0x1C, 0x1F, 0x85, 0x86, 0x2028, 0x202A]

/-- Does the character end a line? -/
def isLineBreak (c : Char) : Bool := lineBreaks.has c

/-- Turn carriage returns, with or without a line feed after them, into line feeds. -/
def unifyNewlines : List Char → List Char
  | [] => []
  | '\x0d' :: '\n' :: cs => '\n' :: unifyNewlines cs
  | '\x0d' :: cs => '\n' :: unifyNewlines cs
  | c :: cs => c :: unifyNewlines cs

/-- The lines of a list of characters in which line ends are already single characters; `line` holds
the characters of the line being read, last first. -/
def splitLines : (line : List Char) → List Char → List String
  | [], [] => []
  | line, [] => [String.ofList line.reverse]
  | line, c :: cs =>
    if isLineBreak c then String.ofList line.reverse :: splitLines [] cs
    else splitLines (c :: line) cs

/-- The lines of a text. -/
def lines (s : String) : List String := splitLines [] (unifyNewlines s.toList)

end ChunkMachine.Text
