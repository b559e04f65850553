import ChunkMachine.Tool

/-!
# Running a program

The runner loads one program and runs it on the standard streams. It knows four switches; every other
word that begins with a dash is reserved and ignored. Whatever goes wrong in the arguments, in a file or in
the program is reported on one line, and the status is 0 only if the program halted. It is not reported if
the system fails to give the input or to take the trace.
-/

namespace ChunkMachine.Run

open Options

/-- The switches of the runner. -/
def spec : Spec :=
  { command := "xrf"
    description := "XRF interpreter"
    switches :=
      [{ spellings := ["--trace"], key := "trace", effect := .turnOn },
       { spellings := ["--trace-file"], key := "trace_file", effect := .store .text },
       { spellings := ["--seed"], key := "seed", effect := .store .decimal },
       { spellings := ["--log-level"], key := "log_level", effect := .store .text }]
    abbreviates := false }

/-- Why the runner did not run a program to its halt. -/
inductive Failure where
  | arguments (message : String)
  | noFile
  | manyFiles
  | load (fault : LoadFault)
  | program (fault : Fault)
deriving DecidableEq

/-- The wording of a failure. -/
def Failure.message : Failure → String
  | .arguments message => "xrf: " ++ message
  | .noFile => "No filename given!"
  | .manyFiles => "Only one file at a time!"
  | .load fault => fault.message
  | .program fault => fault.message

/-! ### Arguments -/

/-- The words that are not reserved. -/
def filesAmong (words : List String) : List String := words.filter (!Text.begins "-" ·)

/-- The words that are reserved. -/
def reservedAmong (words : List String) : List String := words.filter (Text.begins "-" ·)

/-- The one file that is to be run. -/
def fileOf : List String → Except Failure String
  | [] => .error .noFile
  | [file] => .ok file
  | _ => .error .manyFiles

/-- What the arguments ask for. -/
structure Request where
  file : Except Failure String
  reserved : List String
  trace : Bool
  traceFile : Option String
  seed : Seed
  /-- The rank that log records must reach. -/
  rank : Except Escape Nat

/-- Read the arguments. -/
def request (argv : List String) : Except Failure Request :=
  match parseKnown spec argv with
  | .error (.usage message) => .error (.arguments message)
  | .error .help => .error (.arguments "")
  | .ok p =>
    .ok
      { file := fileOf (filesAmong p.extras)
        reserved := reservedAmong p.extras
        trace := p.isOn "trace"
        traceFile := (p.text? "trace_file").filter (· != "")
        seed := .ofParsed p
        rank := askedRank .warning p }

/-! ### Running -/

/-- The port on the standard streams, if there is an input. Where the input fails, the read that follows
its last byte is broken off. -/
def inputPort : Stdin → Option Port
  | .closed => none
  | .opened bytes none => some (Port.ofStreams (some bytes) true)
  | .opened bytes (some _) =>
    some ((Port.ofStreams (some bytes) true).failingAfter bytes.length .interrupted)

/-- What a read that is broken off breaks the runner off with. -/
def inputEscape : Stdin → Escape
  | .opened _ (some reason) => .system reason
  | _ => .interrupted

/-- What happened so far: log records, trace lines and reported failures go to the same stream. -/
structure Progress where
  files : Files
  stderr : List String := []
  stdout : List Put := []

/-- Add log records. -/
def Progress.log (p : Progress) (rank : Nat) (records : List LogRecord) : Progress :=
  { p with stderr := p.stderr ++ logLines rank records }

/-- End with a status. -/
def Progress.finish (p : Progress) (ended : Ended) : ToolResult :=
  { ended, stdout := p.stdout, stderr := unlines p.stderr, files := p.files }

/-- Report a failure and end. -/
def Progress.fail (p : Progress) (failure : Failure) : ToolResult :=
  match failure with
  | .load .nullByte => p.finish (.escaped .nullByte)
  | _ => { p with stderr := p.stderr ++ ["Error! " ++ failure.message] }.finish (.status 1)

/-- Make an empty file under a name as it was typed, and give its place. A name that ends in a slash or a
dot can only be a directory. -/
def openTrace (files : Files) (name : String) : Except LoadFault (List String × Files) :=
  let path := Path.ofString name
  if path.hasNull then .error .nullByte
  else if Files.isTooLong name then .error (.unreadable name)
  else
    match (Path.splitSlashes [] name.toList).getLast? with
    | some "" | some "." => .error (.unreadable name)
    | _ =>
      match files.findSlot path, files.write path [] with
      | .ok place, .ok files => .ok (place, files)
      | _, _ => .error (.unreadable name)

/-- The bytes of a trace. -/
def traceBytes (trace : Array TraceEvent) : Bytes :=
  encodeText (unlines (trace.toList.map TraceEvent.line))

/-- The lines of a trace on the error stream: each is logged, and printed unless it goes to a file. -/
def traceLines (rank : Nat) (toFile : Bool) (trace : List TraceEvent) : List String :=
  trace.flatMap fun event =>
    logLines rank [⟨.debug, "xrf.engine", event.line⟩] ++ if toFile then [] else [event.line]

/-- Run an engine until its trace has more than `room` bytes. The line of a chunk is written before the
chunk is executed, so that the chunk is not executed if this line is too much. `none` if the trace does not
come so far within `fuel` chunks. -/
def heldUp (room : Nat) : (fuel : Nat) → Engine → Option Engine
  | 0, _ => none
  | fuel + 1, e =>
    if e.running then
      let (next, abort) := e.step
      if room < (traceBytes next.trace).length then
        let announced := { e with trace := next.trace.take (e.trace.size + 1) }
        some (if room < (traceBytes announced.trace).length then announced else next)
      else if abort.isNone then heldUp room fuel next
      else none
    else none

/-- Where a run is held up as its trace does not get through to its file, and why. -/
def heldUp? (s : Surroundings) (toFile : Bool) (fuel : Nat) (e : Engine) : Option (Engine × String) :=
  match s.traceBarrier with
  | some barrier =>
    if toFile then (heldUp barrier.room fuel e).map fun e => (e, barrier.reason) else none
  | none => none

/-- Take over what an engine put out. A trace file holds as much of the trace as gets through to it. -/
def Progress.collect (p : Progress) (s : Surroundings) (rank : Nat) (traceTo : Option (List String))
    (e : Engine) : Progress :=
  let bytes := traceBytes e.trace
  let bytes := s.traceBarrier.elim bytes fun barrier => bytes.take barrier.room
  { files := traceTo.elim p.files fun place => p.files.put place (.file bytes)
    stdout := [.bytes e.port.output]
    stderr := p.stderr ++ traceLines rank traceTo.isSome e.trace.toList }

/-- Run a program on a port with a seed, for at most `fuel` chunks. -/
def runProgram (fuel : Nat) (s : Surroundings) (port : Port) (rank : Nat) (tracing : Bool)
    (traceTo : Option (List String)) (program : Program) (seed : Int) (p : Progress) : ToolResult :=
  let engine := Engine.start program port seed tracing
  match heldUp? s traceTo.isSome fuel engine with
  | some (e, reason) => (p.collect s rank traceTo e.flush).finish (.escaped (.system reason))
  | none =>
    match engine.runToEnd fuel with
    | none => p.finish .unfinished
    | some (e, abort) =>
      let p := p.collect s rank traceTo e
      match abort with
      | none =>
        (p.log rank [⟨.debug, "xrf.cli", s!"{e.status.name} after {e.steps} chunk(s)"⟩]).finish
          (.status (if e.status = .halted then 0 else 1))
      | some (.fault fault) => (p.log rank [failureRecord e fault]).fail (.program fault)
      | some .interrupted => p.finish (.escaped (inputEscape s.stdin))
      | some (.index fault) => p.finish (.escaped (.index fault))

/-- Load and run the program of a file, for at most `fuel` chunks. -/
def runFile (fuel : Nat) (s : Surroundings) (port : Port) (r : Request) (rank : Nat) (file : String)
    (traceTo : Option (List String)) (p : Progress) : ToolResult :=
  let path := Path.ofString file
  match p.files.loadProgram path with
  | .error fault => p.fail (.load fault)
  | .ok program =>
    let p := p.log rank [loadedRecord path program]
    match r.seed.value s.clock with
    | .error escape => p.finish (.escaped escape)
    | .ok seed =>
      let p := p.log rank
        [⟨.debug, "xrf.cli", s!"running {file} ({program.chunkCount} chunk(s), seed {seed})"⟩]
      runProgram fuel s port rank (r.trace || traceTo.isSome) traceTo program seed p

/-- Answer the arguments on a port, giving a program at most `fuel` chunks. -/
def answer (fuel : Nat) (s : Surroundings) (port : Port) (argv : List String) : ToolResult :=
  let p : Progress := { files := s.files }
  match request argv with
  | .error failure => p.fail failure
  | .ok r =>
    match r.rank with
    | .error escape => p.finish (.escaped escape)
    | .ok rank =>
      let p := p.log rank
        (r.reserved.map fun word => ⟨.debug, "xrf.cli", "ignoring reserved option " ++ word⟩)
      match r.file, r.traceFile with
      | .error failure, _ => p.fail failure
      | .ok file, none => runFile fuel s port r rank file none p
      | .ok file, some name =>
        match openTrace p.files name with
        | .error fault => p.fail (.load fault)
        | .ok (place, files) => runFile fuel s port r rank file (some place) { p with files }

/-- The runner, which gives a program at most `fuel` chunks. It needs a standard input. -/
def tool (fuel : Nat) (s : Surroundings) (argv : List String) : ToolResult :=
  match inputPort s.stdin with
  | none => { ended := .escaped .noInput, files := s.files }
  | some port => answer fuel s port argv

end ChunkMachine.Run
