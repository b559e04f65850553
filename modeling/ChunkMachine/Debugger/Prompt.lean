import ChunkMachine.Debugger.Dispatch
import ChunkMachine.Debugger.History

/-!
# The prompt

At the prompt the user types lines, interrupts or ends the input. A line whose last visible character
is a backslash goes on in the next one; the pieces are joined by spaces. Each command line is kept in
the history and then carried out. An interrupted command is noted and the prompt goes on; any other
way of leaving a command leaves the prompt, and so do an interrupt and the end of the input at the
prompt itself.

The history may be kept in the very file that the program reads. The program then reads what has been
written there.
-/

namespace ChunkMachine.Debugger

/-- What the user does at the prompt. -/
inductive PromptEvent where
  | line (text : String)
  | interrupt
  | endOfInput
deriving DecidableEq

/-- Take a line: does the command go on in the next line, and what are the pieces so far? A command
of one line has no pieces. -/
def takeLine (pieces : List String) (line : String) : Bool × List String :=
  let stripped := (Text.stripRight line).toList
  if stripped.getLast? = some '\\' then (true, pieces ++ [String.ofList stripped.dropLast])
  else if pieces.isEmpty then (false, [])
  else (false, pieces ++ [String.ofList stripped])

/-- The command of a last line with the pieces so far. -/
def payload (pieces : List String) (line : String) : String :=
  if pieces.isEmpty then line else " ".intercalate pieces

/-- What one command brought forth: the bytes of the program, then the printed text. -/
structure Turn where
  output : Bytes := []
  text : String := ""
  log : List LogRecord := []
deriving DecidableEq

/-- The bytes that the program of a session has put out. -/
def Session.output (s : Session) : Bytes := (s.port?.map Port.output).getD []

/-- The turn of a reply to a command that was given in a session. -/
def Turn.ofReply (before : Session) (r : Reply) : Turn :=
  { output := r.session.output.drop before.output.length, text := r.text, log := r.log }

/-- The state of a prompt. -/
structure Prompt where
  session : Session
  files : Files
  /-- The place of the file that the program reads, if it reads one. -/
  input : Option (List String) := none
  history : Option History
  /-- The turns so far. -/
  turns : List Turn := []

namespace Prompt

/-- The session as it finds the files. The program sees what was written to the file it reads. -/
def sessionWith (p : Prompt) (files : Files) : Session :=
  match p.input.bind files.at? with
  | some (.file bytes) => p.session.mapPort (Port.revise bytes)
  | _ => p.session

/-- Keep a command in the history. -/
def keep (p : Prompt) (command : String) : Prompt × List LogRecord :=
  match p.history with
  | none => (p, [])
  | some h =>
    let (h, files, log) := h.append p.files command
    ({ p with session := p.sessionWith files, history := some h, files }, log)

/-- Keep a command and carry it out. An interrupt is noted and counts as carried out. -/
def enter (fuel : Nat) (w : Surroundings) (r : Registry) (p : Prompt) (command : String) :
    Prompt × Ended :=
  let (p, log) := p.keep command
  let reply := dispatch fuel { w with files := p.files } r p.session command
  let turn := Turn.ofReply p.session reply
  let turn := { turn with log := log ++ turn.log }
  let (turn, ended) := match reply.ended with
    | .escaped .interrupted => ({ turn with text := turn.text ++ "interrupted\n" }, .status 1)
    | ended => (turn, ended)
  ({ p with session := reply.session, turns := p.turns ++ [turn] }, ended)

/-- Leave the prompt on a new line. -/
def leave (p : Prompt) : Prompt × Ended :=
  ({ p with turns := p.turns ++ [{ text := "\n" }] }, .status 0)

/-- Answer the events, with the pieces of a command that is not complete. -/
def run (fuel : Nat) (w : Surroundings) (r : Registry) :
    (pieces : List String) → List PromptEvent → Prompt → Prompt × Ended
  | _, [], p => p.leave
  | _, .interrupt :: _, p => p.leave
  | _, .endOfInput :: _, p => p.leave
  | pieces, .line line :: events, p =>
    match takeLine pieces line with
    | (true, pieces) => run fuel w r pieces events p
    | (false, pieces) =>
      match p.enter fuel w r (payload pieces line) with
      | (p, .status _) => run fuel w r [] events p
      | (p, ended) => (p, ended)

end Prompt

end ChunkMachine.Debugger
