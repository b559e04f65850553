import ChunkMachine.Port
import ChunkMachine.Program.Code
import ChunkMachine.Stack.Shuffle

/-!
# Executing a chunk

The machine is a stack, a port and a generator. A chunk is executed slot by slot. Whether the chunk
has been visited before is fixed for the whole chunk; it decides which of the two skips take effect.

An operation either steers (`skipNew`, `skipOld`, `ret`, `halt`) or acts on the machine
(`Opcode.act`); no operation does both. An operation that fails leaves the stack as it found it, and
what earlier slots did stays done.
-/

namespace ChunkMachine

/-- What a chunk works on. -/
structure Machine where
  stack : Stack
  port : Port
  generator : Generator

/-- How the execution of a chunk ended. -/
inductive Ending where
  /-- Every slot was executed or skipped. -/
  | completed
  /-- The chunk was left by `ret`. -/
  | returned
  /-- The program was ended by `halt`. -/
  | halted
deriving DecidableEq

/-- The name of an ending. -/
def Ending.name : Ending → String
  | .completed => "completed"
  | .returned => "returned"
  | .halted => "halted"

/-- Why the execution of a chunk broke off. -/
inductive Trouble where
  | underflow (u : Underflow)
  | read (fault : ReadFault)
  /-- The chunk has no symbol in the slot that comes next. -/
  | noSlot
deriving DecidableEq

namespace Machine

/-- Replace the stack by the result of an operation on it. -/
def onStack (m : Machine) (result : Except Underflow Stack) : Machine × Option Trouble :=
  match result with
  | .ok stack => ({ m with stack }, none)
  | .error u => (m, some (.underflow u))

/-- Push the next input byte, or `0` at the end of the input. -/
def readByte (m : Machine) : Machine × Option Trouble :=
  match m.port.read with
  | (.ok b, port) =>
    ({ m with stack := Stack.push (b.elim 0 UInt8.toUInt32) m.stack, port }, none)
  | (.error fault, port) => ({ m with port }, some (.read fault))

/-- Pop a word and put out its low byte. -/
def writeByte (m : Machine) : Machine × Option Trouble :=
  match Stack.popFor .output m.stack with
  | .ok (w, stack) => ({ m with stack, port := m.port.write w }, none)
  | .error u => (m, some (.underflow u))

/-- Bring the stack into a random order. -/
def shuffle (m : Machine) : Machine :=
  let (stack, generator) := Stack.shuffle m.stack m.generator
  { m with stack, generator }

end Machine

/-- The effect of an operation on the machine, and what went wrong if it failed. -/
def Opcode.act : Opcode → Machine → Machine × Option Trouble
  | .read, m => m.readByte
  | .write, m => m.writeByte
  | .drop, m => m.onStack ((Stack.pop m.stack).map (·.2))
  | .dup, m => m.onStack (Stack.dup m.stack)
  | .swap, m => m.onStack (Stack.swap m.stack)
  | .inc, m => m.onStack (Stack.inc m.stack)
  | .dec, m => m.onStack (Stack.dec m.stack)
  | .add, m => m.onStack (Stack.add m.stack)
  | .rot, m => m.onStack (Stack.rotate m.stack)
  | .diff, m => m.onStack (Stack.diff m.stack)
  | .shuf, m => (m.shuffle, none)
  | .skipNew, m | .skipOld, m | .ret, m | .halt, m | .nop, m => (m, none)

/-- Does the operation skip the slot after it? -/
def Opcode.skips (visited : Bool) : Opcode → Bool
  | .skipNew => !visited
  | .skipOld => visited
  | _ => false

/-- How the operation ends the chunk, if it does. -/
def Opcode.ending? : Opcode → Option Ending
  | .ret => some .returned
  | .halt => some .halted
  | _ => none

/-- The execution of a chunk, ended or broken off. -/
structure Execution where
  machine : Machine
  /-- The last slot that was entered. -/
  slot : Nat
  result : Except Trouble Ending

/-- Execute the slots that are left, of which the first is still to be passed over if `skip`.
`entered` is the last slot that was entered. -/
def executeFrom (visited : Bool) :
    (left : Nat) → (skip : Bool) → (entered : Nat) → List Opcode → Machine → Execution
  | 0, _, entered, _, m => ⟨m, entered, .ok .completed⟩
  | left + 1, true, entered, ops, m => executeFrom visited left false entered ops.tail m
  | left + 1, false, _, [], m => ⟨m, slotsPerChunk - (left + 1), .error .noSlot⟩
  | left + 1, false, _, op :: ops, m =>
    let slot := slotsPerChunk - (left + 1)
    match op.ending? with
    | some ending => ⟨m, slot, .ok ending⟩
    | none =>
      match op.act m with
      | (m, some trouble) => ⟨m, slot, .error trouble⟩
      | (m, none) => executeFrom visited left (op.skips visited) slot ops m

/-- Execute the first five of the given operations. -/
def execute (ops : List Opcode) (visited : Bool) (m : Machine) : Execution :=
  executeFrom visited slotsPerChunk false 0 ops m

end ChunkMachine
