import ChunkMachine.Debugger.Command
import ChunkMachine.Debugger.Session
import ChunkMachine.Text.LowerCase
import ChunkMachine.Text.Words

/-!
# Completion

What may follow the text before the cursor: the first word is completed to a command, the word after
`load` to a path, and the words after `break` to a subcommand or, after `break clear`, to a breakpoint.
A completion replaces the last word, whatever its case. How paths are completed is left to whoever asks:
`paths` gives the completions of a path, or what breaks the search for them off.
-/

namespace ChunkMachine.Debugger

/-- A text to put in at the cursor. -/
structure Completion where
  text : String
  /-- Where the replaced text starts, relative to the cursor. -/
  start : Int
  /-- The text that the user chooses by. -/
  display : String
deriving DecidableEq

/-- The words before the cursor; after white space the last one is empty. A text that cannot be split
is cut at white space. -/
def wordsBefore (text : String) : List String :=
  match text.toList.getLast? with
  | none => []
  | some c =>
    match Text.splitWords false text with
    | .ok words => if Text.isSpace c then words ++ [""] else words
    | .error _ =>
      let words := Text.splitSpaces [] text.toList
      if c == ' ' || c == '\t' then words ++ [""] else words

/-- Texts in order, each once. -/
def inOrder (l : List String) : List String := l.eraseDups.mergeSort fun a b => !decide (b < a)

/-- The candidates that begin with a word, in either case. -/
def completing (word : String) (candidates : List String) : List Completion :=
  ((inOrder candidates).filter fun entry => Text.begins (Text.lower word) (Text.lower entry)).map
    fun entry => ⟨entry, -(word.length : Int), entry⟩

/-- Every name that a command can be called by. -/
def commandNames (r : Registry) (s : Session) : List String :=
  r.commands.flatMap (fun c => c.name :: c.aliases) ++ s.aliases.map (·.1)

/-- The name of the command that a first word means, or the word itself. -/
def commandMeant (r : Registry) (s : Session) (word : String) : String :=
  ((r.find? (s.resolve word)).map Command.name).getD word

/-- The breakpoints that complete a word, each of which must be writable. -/
def completingBreakpoint (s : Session) (word : String) : Except Escape (List Completion) :=
  if s.breakpoints.all Text.writable then .ok (completing word (s.breakpoints.map toString))
  else .error .longNumber

/-- The completions of the text before the cursor. -/
def complete (paths : String → Except Escape (List Completion)) (r : Registry) (s : Session)
    (text : String) : Except Escape (List Completion) :=
  match wordsBefore text with
  | [] => .ok (completing "" (commandNames r s))
  | [word] => .ok (completing word (commandNames r s))
  | [first, word] =>
    match commandMeant r s first with
    | "load" => paths word
    | "break" => .ok (completing word (breakSubcommands.map (·.1)))
    | _ => .ok []
  | first :: second :: words =>
    if commandMeant r s first = "break" ∧ second = "clear" then
      completingBreakpoint s (words.getLastD "")
    else .ok []

end ChunkMachine.Debugger
