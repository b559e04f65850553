import ChunkMachine.Tool

/-!
# Debugger sessions

A session holds the code of the program that is being debugged, its engine, the breakpoints and the user's
aliases. Loading a program starts an engine on the session's port; resetting starts another one,
which goes on with the same port where the last one left it.

The code, with the flags of the chunks that have been visited, is a store. A program is loaded into a store
of its own, and it is this very store that the engine is started on, not a copy: what the engine marks is
marked for the session. So it is part of the state of a session whether its code is the store of the engine
(`HeldCode`).
-/

namespace ChunkMachine.Debugger

/-- The code that a session holds. -/
inductive HeldCode where
  | nothing
  /-- A store that the engine of the session does not run on, if there is one. -/
  | apart (code : Code)
  /-- The store that the engine of the session runs on. -/
  | engines

/-- The state of a debugger. -/
structure Session where
  /-- The port for the first engine; later ones take the port over from the one before. -/
  freshPort : Option Port := none
  /-- Are reports printed as JSON? -/
  json : Bool := false
  /-- The seed of every engine. -/
  seed : Seed := .clock
  path : Option Path := none
  /-- The code of the program that was loaded last. -/
  held : HeldCode := .nothing
  engine : Option Engine := none
  /-- The user's names for commands, the latest last. -/
  aliases : List (String × String) := []
  /-- The chunks to stop at, in increasing order. -/
  breakpoints : List Int := []

/-- Why a session cannot do what it is asked. -/
inductive SessionFault where
  | noProgram
  | noEngine
  | noPort
  | noChunk (index : Int) (count : Nat)
  | load (fault : LoadFault)
  /-- What is asked breaks the command off. -/
  | escape (cause : Escape)
deriving DecidableEq

/-- The wording of a session fault. -/
def SessionFault.message : SessionFault → String
  | .noProgram => "no program loaded"
  | .noEngine => "no program loaded (use 'load PATH')"
  | .noPort => "no I/O port configured"
  | .noChunk index count => s!"chunk {index} out of range (0-{(count : Int) - 1})"
  | .load fault => fault.message
  | .escape cause => cause.message

namespace Session

/-! ### Loading -/

/-- The port that the next engine will work on. -/
def port? (s : Session) : Option Port :=
  match s.engine with
  | some e => some e.port
  | none => s.freshPort

/-- Change the port that the program works on. -/
def mapPort (f : Port → Port) (s : Session) : Session :=
  match s.engine with
  | some e => { s with engine := some (e.mapPort f) }
  | none => { s with freshPort := s.freshPort.map f }

/-- The code, with its flags. -/
def code (s : Session) : Option Code :=
  match s.held with
  | .nothing => none
  | .apart code => some code
  | .engines => s.engine.map Engine.code

/-- The loaded program. -/
def program (s : Session) : Option Program := s.code.map Code.program

/-- The session with an engine that runs on its code. -/
def withEngine (e : Engine) (s : Session) : Session := { s with engine := some e, held := .engines }

/-- The session with every flag of its code cleared. -/
def resetVisited (s : Session) : Session :=
  match s.held with
  | .nothing => s
  | .apart code => { s with held := .apart code.resetVisited }
  | .engines => { s with engine := s.engine.map Engine.resetVisited }

/-- Start a fresh engine for the loaded program. -/
def reset (clock : Int) (s : Session) : Except SessionFault (Session × Engine) :=
  match s.program, s.port? with
  | none, _ => .error .noProgram
  | some _, none => .error .noPort
  | some program, some port =>
    match s.seed.value clock with
    | .error cause => .error (.escape cause)
    | .ok seed =>
      let e := Engine.start program port seed false
      .ok (s.withEngine e, e)

/-- Take a program over; breakpoints past its last chunk are dropped. -/
def adopt (s : Session) (path : Path) (program : Program) : Session :=
  { s with
    path := some path
    held := .apart (Code.ofProgram program)
    breakpoints := s.breakpoints.filter (· < program.chunkCount) }

@[simp] theorem code_withEngine (s : Session) (e : Engine) : (s.withEngine e).code = some e.code := rfl

@[simp] theorem program_adopt (s : Session) (path : Path) (program : Program) :
    (s.adopt path program).program = some program := rfl

/-- Nothing is changed but the code and the engine that runs on it. -/
theorem resetVisited_eq (s : Session) :
    s.resetVisited = { s with held := s.resetVisited.held, engine := s.resetVisited.engine } := by
  unfold resetVisited
  cases s.held <;> rfl

/-- A session without a code has no flags to clear. -/
theorem resetVisited_of_none {s : Session} (h : s.code = none) : s.resetVisited = s := by
  rcases s with ⟨_, _, _, _, held, engine, _, _⟩
  cases held with
  | nothing => rfl
  | apart code => cases h
  | engines =>
    obtain rfl : engine = none := Option.map_eq_none_iff.1 h
    rfl

@[simp] theorem code_resetVisited (s : Session) :
    s.resetVisited.code = s.code.map Code.resetVisited := by
  unfold code resetVisited
  cases hheld : s.held <;> simp [hheld, Function.comp_def, Engine.resetVisited]

@[simp] theorem isSome_engine_resetVisited (s : Session) :
    s.resetVisited.engine.isSome = s.engine.isSome := by
  unfold resetVisited
  cases s.held <;> simp

@[simp] theorem program_resetVisited (s : Session) : s.resetVisited.program = s.program := by
  simp [program, Function.comp_def, Code.resetVisited, Code.ofProgram]

@[simp] theorem port?_resetVisited (s : Session) : s.resetVisited.port? = s.port? := by
  unfold port? resetVisited
  cases s.held <;> cases s.engine <;> rfl

/-- The engine of the loaded program. -/
def needEngine (s : Session) : Except SessionFault Engine :=
  match s.engine with
  | some e => .ok e
  | none => .error .noEngine

/-! ### Breakpoints -/

/-- Put an integer into an increasing list, unless it is there. -/
def insertSorted (i : Int) : List Int → List Int
  | [] => [i]
  | j :: js => if i < j then i :: j :: js else if i = j then j :: js else j :: insertSorted i js

/-- Set a breakpoint. It must name a chunk of the program, if one is loaded. -/
def addBreakpoint (s : Session) (index : Int) : Except SessionFault Session :=
  let set := { s with breakpoints := insertSorted index s.breakpoints }
  match s.program with
  | none => .ok set
  | some program =>
    if 0 ≤ index ∧ index < program.chunkCount then .ok set
    else .error (.noChunk index program.chunkCount)

/-- Clear a breakpoint; `none` if it is not set. -/
def clearBreakpoint (s : Session) (index : Int) : Option Session :=
  if index ∈ s.breakpoints then
    some { s with breakpoints := s.breakpoints.filter (· != index) }
  else none

/-! ### Aliases -/

/-- The command that a name stands for: an alias is looked up once. -/
def resolve (s : Session) (name : String) : String := (s.aliases.lookup name).getD name

/-- Define an alias. A name that stands for itself is no alias. -/
def setAlias (s : Session) (name command : String) : Session :=
  let others := s.aliases.filter (·.1 != name)
  { s with aliases := if name = command then others else others ++ [(name, command)] }

/-- The aliases in the order of their names. -/
def sortedAliases (s : Session) : List (String × String) :=
  s.aliases.mergeSort fun a b => !decide (b.1 < a.1)

end Session

end ChunkMachine.Debugger
