import ChunkMachine.Engine
import ChunkMachine.Files
import ChunkMachine.Log
import ChunkMachine.Options.Usage

/-!
# Tools

Three command line tools are built on the machine: one runs a program, one lists it and one debugs
it. This module holds what they share: the surroundings they are started in and what they leave
behind.
-/

namespace ChunkMachine

/-- A point from which on the system refuses to go on. -/
structure Barrier where
  /-- How many bytes it lets through. -/
  room : Nat
  /-- Its wording of the refusal. -/
  reason : String
deriving DecidableEq

/-- The standard input of a tool. -/
inductive Stdin where
  | closed
  /-- It gives some bytes. Then it ends, or it fails for the reason that is given. -/
  | opened (bytes : Bytes) (failure : Option String := none)
deriving DecidableEq

/-- What a tool finds when it is started. What is printed or put out always gets through. -/
structure Surroundings where
  files : Files := {}
  stdin : Stdin := .opened []
  /-- Where the file that a trace is written to takes no more bytes, if there is such a point. -/
  traceBarrier : Option Barrier := none
  /-- The time in seconds, which seeds a generator that has no other seed. -/
  clock : Int := 0
  homes : Homes := {}

/-- What can break a tool or a command off without being reported by it. -/
inductive Escape where
  /-- The user interrupted a read. -/
  | interrupted
  /-- A home directory that is asked for cannot be found. -/
  | noHome
  /-- A path holds a null character. -/
  | nullByte
  /-- A file is not in the encoding that it should be in. -/
  | undecodable
  /-- A number is too long to be written. -/
  | longNumber
  /-- What was asked for as the level of the log is no level. -/
  | level (fault : LevelFault)
  /-- The seed is blank. -/
  | blankSeed
  /-- The limit of a resumption is blank. -/
  | blankLimit
  /-- A command line is blank. -/
  | blankLine
  /-- A command has no action. -/
  | unimplemented
  /-- The engine stood on no chunk. -/
  | index (fault : IndexFault)
  /-- There is no standard input. -/
  | noInput
  /-- The system failed to read or to write, for the reason that is given. -/
  | system (reason : String)
deriving DecidableEq

/-- The wording of an escape. -/
def Escape.message : Escape → String
  | .interrupted => ""
  | .noHome => "Could not determine home directory."
  | .nullByte => "embedded null byte"
  | .undecodable => ""
  | .longNumber =>
    s!"Exceeds the limit ({Text.maxDecimalDigits} digits) for integer string conversion; " ++
      "use sys.set_int_max_str_digits() to increase the limit"
  | .level fault => fault.message
  | .blankSeed =>
    "The only supported seed types are: None,\nint, float, str, bytes, and bytearray."
  | .blankLimit => "'>=' not supported between instances of 'int' and 'list'"
  | .blankLine => "'list' object has no attribute 'strip'"
  | .unimplemented => "Command must implement run()"
  | .index fault => fault.message
  | .noInput => "'NoneType' object has no attribute 'buffer'"
  | .system reason => reason

/-- A home directory that cannot be found breaks a command off. -/
def Escape.ofHome : HomeFault → Escape
  | .unknown => .noHome
  | .nullByte => .nullByte

/-- How a tool or a command ended. -/
inductive Ended where
  /-- It returned a status. -/
  | status (code : Nat)
  /-- It left the program with an exit code. -/
  | exit (code : Nat)
  /-- It was broken off. -/
  | escaped (escape : Escape)
  /-- It did not end within the fuel. -/
  | unfinished
deriving DecidableEq

/-- The bytes of a text. -/
def encodeText (s : String) : Bytes := s.toUTF8.toList

/-- What is put on the standard output. The bytes of a program go to the stream itself, while a text is
printed through a layer above it, which may keep the text back. So the bytes arrive in their order and the
texts in theirs, but a text can arrive after bytes that were put out later. -/
inductive Put where
  | bytes (b : Bytes)
  | text (s : String)
deriving DecidableEq

/-- What a tool leaves behind. -/
structure ToolResult where
  ended : Ended
  /-- What was put on the standard output, in the order of the calls. -/
  stdout : List Put := []
  stderr : String := ""
  files : Files

namespace ToolResult

/-- The bytes that the program has put out. -/
def output (r : ToolResult) : Bytes :=
  r.stdout.flatMap fun
    | .bytes b => b
    | .text _ => []

/-- The text that the tool has printed. -/
def printed (r : ToolResult) : String :=
  String.join <| r.stdout.map fun
    | .bytes _ => ""
    | .text s => s

/-- All of it in the order of the calls, as it arrives where no text is kept back. -/
def inCallOrder (r : ToolResult) : Bytes :=
  r.stdout.flatMap fun
    | .bytes b => b
    | .text s => encodeText s

end ToolResult

/-! ### Shared switches -/

/-- The seed that was asked for. -/
inductive Seed where
  /-- None, so the clock is taken. -/
  | clock
  | number (i : Int)
  | blank
deriving DecidableEq

/-- The seed among the values of the arguments. -/
def Seed.ofParsed (p : Options.Parsed) : Seed :=
  if p.isBlank "seed" then .blank else (p.int? "seed").elim .clock .number

/-- The number to make a generator from. -/
def Seed.value (clock : Int) : Seed → Except Escape Int
  | .clock => .ok clock
  | .number i => .ok i
  | .blank => .error .blankSeed

/-- The rank that log records must reach, from the values of the arguments. -/
def askedRank (default : Level) (p : Options.Parsed) : Except Escape Nat :=
  if p.isBlank "log_level" then .error (.level .blank)
  else
    match p.text? "log_level" with
    | none => .ok default.rank
    | some name => (rankOfName default name).mapError .level

/-! ### Records and texts -/

/-- The record of a program that was loaded. -/
def loadedRecord (path : Path) (program : Program) : LogRecord :=
  ⟨.debug, "xrf.code", s!"loaded {path.text}: {program.chunkCount} chunk(s)"⟩

/-- The record of a program that failed. -/
def failureRecord (e : Engine) (fault : Fault) : LogRecord :=
  ⟨.debug, "xrf.engine",
    s!"failed at chunk {e.current} after {e.steps} step(s): {fault.message}"⟩

/-- Lines, each ended by a line feed. -/
def unlines (lines : List String) : String := String.join (lines.map (· ++ "\n"))

/-- The end of a tool that was not given the arguments it takes. -/
def refuseArguments (spec : Options.Spec) (files : Files) : Options.Refusal → ToolResult
  | .help => { ended := .exit 0, stdout := [.text spec.help], files }
  | .usage message =>
    { ended := .exit 2
      stderr := spec.usage ++ spec.command ++ ": error: " ++ message ++ "\n"
      files }

end ChunkMachine
