import ChunkMachine.Debugger.Prompt

/-!
# Debugging a program

The debugger loads a program, if one is given, and then carries out the commands given as arguments,
until one fails, or else starts the prompt. The program reads its input from a file and writes to the
standard output, between the replies to the commands.
-/

namespace ChunkMachine.Debug

open Options Debugger

/-- The arguments of the debugger. -/
def spec : Spec :=
  { command := "xrf-dbg"
    description := "XRF step debugger"
    switches :=
      [helpSwitch,
       { spellings := ["--input"], key := "input", effect := .store .text
         help := "file supplying bytes for the READ opcode (default: none)" },
       { spellings := ["--seed"], key := "seed", effect := .store .decimal
         help := "seed for the shuffle opcode" },
       { spellings := ["--json"], key := "json", effect := .turnOn
         help := "Emit JSON output when supported" },
       { spellings := ["--log-level"], key := "log_level", effect := .store .text
         help := "Logging level (default INFO)" },
       { spellings := ["-c", "--command"], key := "command", effect := .collect
         help := "Execute a command non-interactively (repeatable; quote the command string)" },
       { spellings := ["--history"], key := "history", effect := .store .text
         help := "Path to command history file" }]
    operands :=
      [{ name := "program", arity := .optional, help := "XRF program to load at start-up" }] }

/-- The name of the history file in the home directory. -/
def historyName : String := ".xrf-dbg-history"

/-- What the debugger did: its result, and the lines that the prompt could recall at its start, if
there was a prompt. -/
structure Outcome where
  result : ToolResult
  recalled : Option (List String) := none

/-- The result of some turns. Leaving the program by a command ends the debugger with its code. -/
def conclude (rank : Nat) (files : Files) (turns : List Turn) (ended : Ended) : ToolResult :=
  { ended := match ended with
      | .exit code => .status code
      | ended => ended
    stdout := turns.flatMap fun t => [.bytes t.output, .text t.text]
    stderr := unlines (turns.flatMap fun t => logLines rank t.log)
    files }

/-- Carry out a command line in a session, after some turns. -/
def oneLine (fuel : Nat) (w : Surroundings) (s : Session) (turns : List Turn) (line : String) :
    Session × List Turn × Ended :=
  let reply := dispatch fuel w registry s line
  (reply.session, turns ++ [Turn.ofReply s reply], reply.ended)

/-- Carry out command lines until one does not return the status 0. -/
def runLines (fuel : Nat) (w : Surroundings) :
    List (Option String) → Session → List Turn → List Turn × Ended
  | [], _, turns => (turns, .status 0)
  | none :: _, _, turns =>
    (turns ++ [{ log := [⟨.debug, "xrf_dbg.cli", "running []"⟩] }], .escaped .blankLine)
  | some line :: lines, s, turns =>
    let note : Turn := { log := [⟨.debug, "xrf_dbg.cli", "running " ++ Text.quoted line⟩] }
    match oneLine fuel w s (turns ++ [note]) line with
    | (s, turns, .status 0) => runLines fuel w lines s turns
    | (_, turns, ended) => (turns, ended)

/-- Start the prompt. -/
def prompt (fuel : Nat) (w : Surroundings) (rank : Nat) (path : String)
    (input : Option (List String)) (events : List PromptEvent) (s : Session) (turns : List Turn) :
    Outcome :=
  match History.openAt w (some path) 500 with
  | .error escape => { result := conclude rank w.files turns (.escaped escape) }
  | .ok (h, log) =>
    let start : Prompt :=
      { session := s, files := w.files, input, history := some h, turns := turns ++ [{ log }] }
    let (p, ended) := start.run fuel w registry [] events
    { result := conclude rank p.files p.turns ended, recalled := some h.entries }

/-- The path of the history, which is in the home directory unless another one is asked for. A blank one
is written as an empty list. -/
def historyPath (home : String) (p : Parsed) : String :=
  if p.isBlank "history" then "[]"
  else
    match p.text? "history" with
    | some name => (Path.ofString name).text
    | none => ((Path.ofString home).join historyName).text

/-- Carry out the commands or start the prompt, in a session in which the program is loaded. -/
def serve (fuel : Nat) (w : Surroundings) (home : String) (rank : Nat) (p : Parsed)
    (input : Option (List String)) (events : List PromptEvent) (s : Session) (turns : List Turn) :
    Outcome :=
  match p.texts "command" with
  | [] => prompt fuel w rank (historyPath home p) input events s turns
  | commands =>
    let (turns, ended) := runLines fuel w commands s turns
    { result := conclude rank w.files turns ended }

/-- The place and the bytes of the input file, if there is one. -/
def openInput (w : Surroundings) (p : Parsed) : Except FileError (Option (List String × Bytes)) :=
  match p.text? "input" with
  | none => .ok none
  | some name => do
    let path := Path.ofString name
    let bytes ← w.files.read path
    let place ← Files.failingAt path (w.files.find path)
    return some (place, bytes)

/-- Answer the arguments. -/
def answer (fuel : Nat) (w : Surroundings) (home : String) (argv : List String)
    (events : List PromptEvent) : Outcome :=
  match parse spec argv with
  | .error refusal => { result := refuseArguments spec w.files refusal }
  | .ok p =>
    match askedRank .info p, openInput w p with
    | .error escape, _ => { result := { ended := .escaped escape, files := w.files } }
    | .ok _, .error e =>
      if e.fault = .nullByte then
        { result := { ended := .escaped .nullByte, files := w.files } }
      else
        { result :=
            { ended := .status 1
              stderr := s!"error: cannot open input {e.path.text}: {e.fault.reason}\n"
              files := w.files } }
    | .ok rank, .ok input =>
      let s : Session :=
        { freshPort := some (Port.ofStreams (input.map (·.2)) true)
          json := p.isOn "json"
          seed := .ofParsed p }
      let place := input.map (·.1)
      match (p.text? "program").filter (· != "") with
      | none => serve fuel w home rank p place events s []
      | some program =>
        match oneLine fuel w s [] ("load " ++ Text.quoteWord program) with
        | (s, turns, .status 0) => serve fuel w home rank p place events s turns
        | (_, turns, ended) => { result := conclude rank w.files turns ended }

/-- The debugger. It needs to know the home directory of the user, whatever it is asked for. -/
def tool (fuel : Nat) (w : Surroundings) (argv : List String) (events : List PromptEvent) :
    Outcome :=
  match w.homes.find "" with
  | .error fault => { result := { ended := .escaped (.ofHome fault), files := w.files } }
  | .ok home => answer fuel w home argv events

end ChunkMachine.Debug
