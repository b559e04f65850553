/-!
# Command line words

A command line is split into words at spaces, tabs and line ends. Single quotes keep everything up to
the next single quote. Double quotes do so too, but a backslash in them protects a double quote or a
backslash. Outside of quotes a backslash protects any character. If comments are allowed, a `#`
outside of quotes hides the rest of its line, also in the middle of a word.

`quoteWord` writes a word in such a way that splitting gives it back.
-/

namespace ChunkMachine.Text

/-- Why a command line has no words. -/
inductive WordFault where
  | noClosingQuote
  | noEscapedCharacter
deriving DecidableEq

/-- The wording of a word fault. -/
def WordFault.message : WordFault → String
  | .noClosingQuote => "No closing quotation"
  | .noEscapedCharacter => "No escaped character"

/-- Where the splitter stands. -/
inductive WordMode where
  /-- Between words. -/
  | between
  /-- In a word, outside of quotes. -/
  | word
  /-- In quotes of the given kind. -/
  | quote (mark : Char)
  /-- After a backslash outside of quotes. -/
  | escape
  /-- After a backslash in double quotes. -/
  | quoteEscape
  /-- In a comment. -/
  | comment
deriving DecidableEq

/-- Does the character separate words? -/
def isSeparator (c : Char) : Bool := c == ' ' || c == '\t' || c == '\x0d' || c == '\n'

/-- Is the character a quote? -/
def isQuote (c : Char) : Bool := c == '\'' || c == '"'

/-- The words of what is left of a line; `token` holds the characters of the word being read, last
first. -/
def splitFrom (comments : Bool) :
    WordMode → (token : List Char) → List Char → Except WordFault (List String)
  | .between, _, [] => .ok []
  | .comment, _, [] => .ok []
  | .word, token, [] => .ok [String.ofList token.reverse]
  | .quote _, _, [] => .error .noClosingQuote
  | .escape, _, [] => .error .noEscapedCharacter
  | .quoteEscape, _, [] => .error .noEscapedCharacter
  | .between, token, c :: cs =>
    if isSeparator c then splitFrom comments .between [] cs
    else if comments && c == '#' then splitFrom comments .comment [] cs
    else if c == '\\' then splitFrom comments .escape token cs
    else if isQuote c then splitFrom comments (.quote c) token cs
    else splitFrom comments .word [c] cs
  | .word, token, c :: cs =>
    if isSeparator c then
      (splitFrom comments .between [] cs).map (String.ofList token.reverse :: ·)
    else if comments && c == '#' then
      (splitFrom comments .comment [] cs).map (String.ofList token.reverse :: ·)
    else if isQuote c then splitFrom comments (.quote c) token cs
    else if c == '\\' then splitFrom comments .escape token cs
    else splitFrom comments .word (c :: token) cs
  | .quote mark, token, c :: cs =>
    if c == mark then splitFrom comments .word token cs
    else if c == '\\' && mark == '"' then splitFrom comments .quoteEscape token cs
    else splitFrom comments (.quote mark) (c :: token) cs
  | .escape, token, c :: cs => splitFrom comments .word (c :: token) cs
  | .quoteEscape, token, c :: cs =>
    if c == '\\' || c == '"' then splitFrom comments (.quote '"') (c :: token) cs
    else splitFrom comments (.quote '"') (c :: '\\' :: token) cs
  | .comment, _, c :: cs =>
    if c == '\n' then splitFrom comments .between [] cs else splitFrom comments .comment [] cs

/-- The words of a line. -/
def splitWords (comments : Bool) (line : String) : Except WordFault (List String) :=
  splitFrom comments .between [] line.toList

/-! ### Quoting -/

/-- Does the character stand for itself in a word? -/
def isPlain (c : Char) : Bool :=
  c.isAlphanum || "_@%+=:,./-".toList.contains c

/-- A character inside single quotes: a single quote is put into double quotes of its own. -/
def quoteInWord (c : Char) : List Char :=
  if c == '\'' then "'\"'\"'".toList else [c]

/-- A word written so that it is split into itself. -/
def quoteWord (s : String) : String :=
  if s.toList.isEmpty then "''"
  else if s.toList.all isPlain then s
  else "'" ++ String.ofList (s.toList.flatMap quoteInWord) ++ "'"

end ChunkMachine.Text
