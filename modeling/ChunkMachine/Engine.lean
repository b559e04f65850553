import ChunkMachine.Engine.Fault
import ChunkMachine.Engine.Trace

/-!
# The engine

An engine runs a program chunk by chunk. It starts in chunk 0 with the stack `[0]`. After a chunk
that neither halted nor failed, the chunk is marked as visited and the top of the stack names the
next one. Only `halt` ends a program well; every other end is a fault, which the engine records.

`step` executes one chunk and gives the engine afterwards together with what broke the step off, if
anything did: what a broken step did before it broke stays done. `run` repeats it up to a limit.
`runToEnd` has no limit of its own and so takes fuel; it answers `none` if the fuel does not last.
-/

namespace ChunkMachine

/-- Whether a program goes on. -/
inductive Status where
  | running
  | halted
  | failed (fault : Fault)
deriving DecidableEq

/-- The name of a status. -/
def Status.name : Status → String
  | .running => "running"
  | .halted => "halted"
  | .failed _ => "failed"

/-- A program in execution. -/
structure Engine where
  code : Code
  machine : Machine
  /-- The seed that the generator was made from. -/
  seed : Int
  status : Status := .running
  /-- The number of the chunk to execute next. -/
  current : Int := 0
  /-- How many chunks have been executed without breaking off. -/
  steps : Nat := 0
  /-- Are chunks recorded in the trace? -/
  tracing : Bool := false
  trace : Array TraceEvent := #[]

namespace Engine

/-- A fresh engine for a program, a port and a seed. -/
def start (program : Program) (port : Port) (seed : Int) (tracing : Bool) : Engine :=
  { code := Code.ofProgram program
    machine := ⟨[0], port, Generator.ofSeed seed⟩
    seed
    tracing }

/-- Does the program go on? -/
def running (e : Engine) : Bool := e.status = .running

/-- The stack, top first. -/
def stack (e : Engine) : Stack := e.machine.stack

/-- The port. -/
def port (e : Engine) : Port := e.machine.port

/-- The recorded fault. -/
def fault? (e : Engine) : Option Fault :=
  match e.status with
  | .failed fault => some fault
  | _ => none

/-- Record a trace line if the engine is traced. -/
def record (e : Engine) (event : TraceEvent) : Engine :=
  if e.tracing then { e with trace := e.trace.push event } else e

/-- Record a fault and break off. -/
def fail (e : Engine) (fault : Fault) : Engine × Option Abort :=
  ({ e with status := .failed fault }, some (.fault fault))

/-- Change the port. -/
def mapPort (f : Port → Port) (e : Engine) : Engine :=
  { e with machine := { e.machine with port := f e.machine.port } }

/-- Pass the pending output on. -/
def flush (e : Engine) : Engine := e.mapPort Port.flush

/-- Mark the chunk that was executed and go to the one that the top of the stack names. -/
def jump (e : Engine) (index : Nat) : Engine × Option Abort :=
  let e := { e with code := e.code.mark index }
  match e.machine.stack with
  | [] => e.fail .emptyStack
  | target :: _ =>
    if target.toNat < e.code.chunkCount then ({ e with current := target.toNat }, none)
    else e.fail (.invalidJump target)

/-- What the engine makes of the execution of its chunk. -/
def conclude (e : Engine) (index : Nat) (chunk : Chunk) (x : Execution) : Engine × Option Abort :=
  let e := { e with machine := x.machine }
  match x.result with
  | .error (.underflow u) => e.fail (.underflow u (chunk.toList.getD x.slot .nop) index)
  | .error (.read .outOfMemory) => e.fail .outOfMemory
  | .error (.read .interrupted) => (e, some .interrupted)
  | .error .noSlot => (e, some (.index .noSlot))
  | .ok .halted =>
    let e := { e with steps := e.steps + 1, status := .halted }
    (e.record (.halt index e.steps), none)
  | .ok _ => { e with steps := e.steps + 1 }.jump index

/-- Execute the current chunk and go to the next. An engine that is not running stays as it is. -/
def step (e : Engine) : Engine × Option Abort :=
  if e.running then
    match e.code.chunk e.current with
    | .error fault => (e, some (.index fault))
    | .ok chunk =>
      let index := e.current.toNat
      let visited := e.code.visited.getD index false
      let e := e.record (.chunk index visited chunk e.machine.stack)
      e.conclude index chunk (execute chunk.toList visited e.machine)
  else (e, none)

/-- Step while the program goes on, at most `limit` times. -/
def advance : (limit : Nat) → Engine → Engine × Option Abort
  | 0, e => (e, none)
  | limit + 1, e =>
    if e.running then
      match e.step with
      | (e, some abort) => (e, some abort)
      | (e, none) => advance limit e
    else (e, none)

/-- Step while the program goes on, at most `limit` times, and flush the port. -/
def run (limit : Nat) (e : Engine) : Engine × Option Abort :=
  let (e, abort) := advance limit e
  (e.flush, abort)

/-- Run to the end of the program; `none` if it does not come within `fuel` chunks. -/
def runToEnd (fuel : Nat) (e : Engine) : Option (Engine × Option Abort) :=
  let (e, abort) := e.run fuel
  if abort.isNone && e.running then none else some (e, abort)

/-! ### Intervention from outside -/

/-- Push an integer, taken modulo `2 ^ 32`. -/
def push (e : Engine) (value : Int) : Engine :=
  { e with machine := { e.machine with stack := Stack.push (Word.ofInt value) e.machine.stack } }

/-- Set the flag at a position. -/
def markVisited (e : Engine) (index : Int) : Except IndexFault Engine :=
  (e.code.markVisited index).map fun code => { e with code }

/-- Clear every flag. -/
def resetVisited (e : Engine) : Engine := { e with code := e.code.resetVisited }

/-- Stand on a chunk number, which is not checked until the next step. -/
def goTo (e : Engine) (index : Int) : Engine := { e with current := index }

end Engine

end ChunkMachine
