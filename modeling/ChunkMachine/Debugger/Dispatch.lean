import ChunkMachine.Debugger.Command
import ChunkMachine.Debugger.Control
import ChunkMachine.Text.Words
import ChunkMachine.Tool.Disassemble

/-!
# Command lines

A command line is split into words. The first one names a command, by an alias of the user or by a
name of the registry; the others are its arguments. A command gives a reply: the session afterwards,
how the command ended, its report and what it logged. The session's JSON switch decides in which form
the report is printed, and nothing else but whether a number in it is too long to be written.

A line that cannot be split is turned into the pseudo-command `#parse-error` with the reason as its
argument, so this word cannot be used as a command.
-/

namespace ChunkMachine.Debugger

open Options

/-- The answer to a command line. -/
structure Reply where
  session : Session
  ended : Ended
  report : Option Report := none
  log : List LogRecord := []

namespace Reply

/-- The text that a reply prints. -/
def text (r : Reply) : String := r.report.elim "" (Report.render r.session.json)

/-- A command that did what it was asked. -/
def done (session : Session) (message : String) (data : Document) : Reply :=
  { session, ended := .status 0, report := some (.result message (some data)) }

/-- A command that was refused. -/
def refused (session : Session) (message : String) : Reply :=
  { session, ended := .status 1, report := some (.error message .null) }

/-- A command that was broken off. -/
def escaped (session : Session) (escape : Escape) : Reply := { session, ended := .escaped escape }

/-- A command that the session cannot carry out. -/
def failed (session : Session) : SessionFault → Reply
  | .escape cause => escaped session cause
  | fault => refused session fault.message

/-- A reply that writes some numbers. One that is too long breaks the command off, after what it did
to the session. -/
def writing (numbers : List Int) (r : Reply) : Reply :=
  if numbers.all Text.writable then r else escaped r.session .longNumber

/-- A command that was not given the arguments it takes. -/
def misused (session : Session) (spec : Spec) : Refusal → Reply
  | .usage message => refused session (spec.command ++ ": " ++ message)
  | .help => { session, ended := .exit 0, report := some (.notice spec.help) }

end Reply

/-! ### Programs -/

/-- Load a program. -/
def load (w : Surroundings) (s : Session) (words : List String) : Reply :=
  match parse loadSpec words with
  | .error refusal => .misused s loadSpec refusal
  | .ok p =>
    let name := (p.text? "path").getD ""
    match (Path.ofString name).expandHome w.homes with
    | .error fault => .escaped s (.ofHome fault)
    | .ok path =>
      match w.files.loadProgram path with
      | .error .nullByte => .escaped s .nullByte
      | .error fault => .refused s fault.message
      | .ok program =>
        let count := program.chunkCount
        let s := s.adopt path program
        let read := loadedRecord path program
        match s.reset w.clock with
        | .error fault => { Reply.failed s fault with log := [read] }
        | .ok (s, _) =>
          { Reply.done s s!"Loaded {name} ({count} chunk(s))"
              (.record [("path", .text path.text), ("chunks", .int count)]) with
            log :=
              [read, ⟨.info, "xrf_dbg.context", s!"loaded {path.text} ({count} chunk(s))"⟩] }

/-- Restart the program. The flags are cleared first, and stay so if that fails. -/
def reset (w : Surroundings) (s : Session) : Reply :=
  match s.reset w.clock with
  | .error fault => .failed s.resetVisited fault
  | .ok (s, e) =>
    -- only the document names the seed
    .writing (if s.json then [e.seed] else []) <|
      .done s "VM reset to chunk 0" (.record [("chunk", .int e.current), ("seed", .int e.seed)])

/-! ### Execution -/

/-- The reply to a command that moved the engine. -/
def moved (s : Session) (m : Move) : Reply :=
  let s := { s with engine := some m.engine }
  match m.verdict with
  | .stopped stop =>
    { session := s
      ended := .status (if stop.failed then 1 else 0)
      report := some stop.report
      log := m.log }
  | .escaped escape => { Reply.escaped s escape with log := m.log }
  | .going | .unfinished => { session := s, ended := .unfinished, log := m.log }

/-- Execute some chunks. -/
def step (s : Session) (words : List String) : Reply :=
  match parse stepSpec words with
  | .error refusal => .misused s stepSpec refusal
  | .ok p =>
    match s.needEngine with
    | .error fault => .refused s fault.message
    | .ok e => moved s (stepMany (max 1 ((p.int? "count").getD 1)).toNat e)

/-- Go on with the program. -/
def goOn (fuel : Nat) (s : Session) (words : List String) : Reply :=
  match parse resumeSpec words with
  | .error refusal => .misused s resumeSpec refusal
  | .ok p =>
    match s.needEngine with
    | .error fault => .refused s fault.message
    | .ok e =>
      if p.isBlank "max" then .escaped s .blankLimit
      else moved s (resume fuel s.breakpoints (p.int? "max") e)

/-! ### Breakpoints -/

/-- What a `break` line asks for. -/
inductive BreakRequest where
  | add (index : Int)
  | clear (index : Int)
  | clearAll
  | list
deriving DecidableEq

/-- Why a `break` line asks for nothing: the spec that it does not fit. -/
structure BreakRefusal where
  spec : Spec
  refusal : Refusal

/-- The complaint about an unknown subcommand. -/
def invalidChoice (word : String) : Refusal :=
  complaint "subcmd" ("invalid choice: " ++ Text.quoted word ++ " (choose from " ++
    ", ".intercalate (breakSubcommands.map fun sub => Text.quoted sub.1) ++ ")")

/-- The request of a subcommand with its chunk. -/
def BreakRequest.of (name : String) (p : Parsed) : BreakRequest :=
  match name, p.int? "chunk" with
  | "add", some index => .add index
  | "clear", some index => .clear index
  | "clearall", _ => .clearAll
  | _, _ => .list

/-- Read the arguments of `break`. Without a subcommand the breakpoints are listed. -/
def breakRequest (words : List String) : Except BreakRefusal BreakRequest :=
  match parseKnown breakSpec words with
  | .error refusal => .error ⟨breakSpec, refusal⟩
  | .ok p =>
    let rest (extras : List String) (request : BreakRequest) :=
      if extras.isEmpty then .ok request else .error ⟨breakSpec, unrecognized extras⟩
    match p.words? "subcmd" with
    | none | some [] => rest p.extras .list
    | some (name :: arguments) =>
      match breakSubcommands.lookup name with
      | none => .error ⟨breakSpec, invalidChoice name⟩
      | some takesChunk =>
        let spec := subcommandSpec name takesChunk
        match parseKnown spec arguments with
        | .error refusal => .error ⟨spec, refusal⟩
        | .ok q => rest (p.extras ++ q.extras) (.of name q)

/-- The breakpoints in words. -/
def breakpointsText (breakpoints : List Int) : String :=
  if breakpoints.isEmpty then "breakpoints: (none)"
  else "breakpoints: " ++ ", ".intercalate (breakpoints.map toString)

/-- Manage breakpoints. -/
def breakpoints (s : Session) (words : List String) : Reply :=
  match breakRequest words with
  | .error refusal => .misused s refusal.spec refusal.refusal
  | .ok (.add index) =>
    .writing [index] <|
      match s.addBreakpoint index with
      | .error fault => .refused s fault.message
      | .ok s => .done s s!"Breakpoint at chunk {index}" (.record [("added", .int index)])
  | .ok (.clear index) =>
    .writing [index] <|
      match s.clearBreakpoint index with
      | none => .refused s s!"no breakpoint at chunk {index}"
      | some s =>
        .done s s!"Cleared breakpoint at chunk {index}" (.record [("cleared", .int index)])
  | .ok .clearAll =>
    .done { s with breakpoints := [] } "Cleared all breakpoints"
      (.record [("breakpoints", .list [])])
  | .ok .list =>
    .writing s.breakpoints <|
      .done s (breakpointsText s.breakpoints)
        (.record [("breakpoints", .list (s.breakpoints.map .int))])

/-! ### Inspection -/

/-- Show the stack. -/
def stack (s : Session) : Reply :=
  match s.needEngine with
  | .error fault => .refused s fault.message
  | .ok e =>
    let values := e.stack.map fun w => (w.toNat : Int)
    .done s (stackText values) (.record [("stack", .list (values.map .int))])

/-- The facts about an engine up to its seed, as text and as documents. The numbers among them count what
is there or was done. -/
def countedFacts (s : Session) (e : Engine) : List (String × String × Document) :=
  let number (i : Int) : String × Document := (toString i, .int i)
  let path := s.path.map Path.text
  [("program", path.getD "None", Document.ofText? path),
   ("state", e.status.name, .text e.status.name),
   ("chunk", number e.current),
   ("chunks", number e.code.chunkCount),
   ("visited", number e.code.visitedCount),
   ("steps", number e.steps),
   ("depth", number e.stack.length)]

/-- The facts about an engine. -/
def facts (s : Session) (e : Engine) : List (String × String × Document) :=
  countedFacts s e ++ [("seed", toString e.seed, .int e.seed)] ++
    (e.fault?.map fun fault => ("error", fault.message, Document.text fault.message)).toList

/-- The lines that show some facts. -/
def factLines (facts : List (String × String × Document)) : List String :=
  "info:" :: facts.map fun (key, text, _) => "  " ++ Text.padRight 8 key ++ ": " ++ text

/-- Show the state of the engine. The text is printed line by line, so that a seed that is too long to be
written breaks it off in the middle. -/
def info (s : Session) : Reply :=
  match s.needEngine with
  | .error fault => .refused s fault.message
  | .ok e =>
    if Text.writable e.seed then
      .done s ("\n".intercalate (factLines (facts s e)))
        (.record [("info", .record ((facts s e).map fun (key, _, data) => (key, data)))])
    else
      { Reply.escaped s .longNumber with
        report :=
          if s.json then none else some (.notice (unlines (factLines (countedFacts s e)))) }

/-- The part of a listing from a chunk on. -/
def window (start count : Int) (listing : List Entry) : List Entry :=
  (listing.drop start.toNat).take (max 1 count).toNat

/-- The text of a part of a listing. -/
def windowText (start current : Int) (window : List Entry) : String :=
  if window.isEmpty then s!"no chunks at {start}"
  else "\n".intercalate (listingLines window (some current))

/-- List chunks, by default from two before the current one. -/
def listing (s : Session) (words : List String) : Reply :=
  match parse listingSpec words with
  | .error refusal => .misused s listingSpec refusal
  | .ok p =>
    match s.needEngine with
    | .error fault => .refused s fault.message
    | .ok e =>
      let start := (p.int? "start").getD (max 0 (e.current - 2))
      if start < 0 then
        .writing [start] (.refused s s!"disasm: start must be a chunk index, not {start}")
      else
        let window := window start ((p.int? "count").getD 8) e.code.program.listing
        -- only the text of an empty window names the start
        .writing (if window.isEmpty && !s.json then [start] else []) <|
          .done s (windowText start e.current window)
            (.record
              [("current", .int e.current), ("listing", .list (window.map Entry.document))])

/-! ### Aliases and help -/

/-- The aliases in words. -/
def aliasesText (aliases : List (String × String)) : String :=
  if aliases.isEmpty then "aliases: (none)"
  else "\n".intercalate (aliases.map fun (name, target) => "  " ++ name ++ " -> " ++ target)

/-- Define or list aliases. -/
def aliases (s : Session) (words : List String) : Reply :=
  match parse aliasSpec words with
  | .error refusal => .misused s aliasSpec refusal
  | .ok p =>
    match p.text? "alias", p.text? "command" with
    | none, _ =>
      .done s (aliasesText s.sortedAliases)
        (.record
          [("aliases", .record (s.sortedAliases.map fun (name, target) => (name, .text target)))])
    | some _, none => .refused s "usage: alias NAME COMMAND"
    | some name, some command =>
      .done (s.setAlias name command) (name ++ " -> " ++ command)
        (.record [("alias", .text name), ("command", .text command)])

/-- The document of a command. -/
def Command.document (c : Command) : Document :=
  .record
    [("name", .text c.name), ("description", .text c.description), ("aliases", .texts c.aliases)]

/-- Show the commands, or the one that is asked for. -/
def help (r : Registry) (s : Session) (words : List String) : Reply :=
  if !r.helpBound then .refused s "help is not bound to a registry"
  else
    let shown := match words with
      | [] => r.commands
      | word :: _ => r.commands.filter (·.answersTo (s.resolve word))
    if shown.isEmpty then .refused s ("unknown command '" ++ words.headD "" ++ "'")
    else
      .done s ("\n".intercalate (shown.map Command.helpLine))
        (.record [("commands", .list (shown.map Command.document))])

/-! ### Lines -/

/-- The first word of a line that cannot be split. -/
def parseErrorWord : String := "#parse-error"

/-- The words of a line; a line that cannot be split gives the pseudo-command for it. -/
def commandWords (line : String) : List String :=
  match Text.splitWords true line with
  | .ok words => words
  | .error fault => [parseErrorWord, fault.message]

/-- Perform the action of a command. -/
def perform (fuel : Nat) (w : Surroundings) (r : Registry) (s : Session) (words : List String) :
    Action → Reply
  | .help => help r s words
  | .load => load w s words
  | .reset => reset w s
  | .step => step s words
  | .resume => goOn fuel s words
  | .breakpoints => breakpoints s words
  | .stack => stack s
  | .info => info s
  | .listing => listing s words
  | .aliases => aliases s words
  | .exit => { session := s, ended := .exit 0 }
  | .missing => .escaped s .unimplemented

/-- A line that names no command. -/
def noticed (s : Session) (text : String) : Reply :=
  { session := s, ended := .status 1, report := some (.notice (text ++ "\n")) }

/-- Carry out a command line. -/
def dispatch (fuel : Nat) (w : Surroundings) (r : Registry) (s : Session) (line : String) : Reply :=
  match commandWords (Text.strip line) with
  | [] => { session := s, ended := .status 0 }
  | word :: words =>
    if word = parseErrorWord then noticed s ("Parse error: " ++ words.getLastD line)
    else
      match r.find? (s.resolve word) with
      | none => noticed s ("Unknown command: " ++ s.resolve word)
      | some command => perform fuel w r s words command.action

end ChunkMachine.Debugger
