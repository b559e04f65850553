import ChunkMachine.Program
import ChunkMachine.Stack
import ChunkMachine.Text.Columns

/-!
# Traces

A traced engine records every chunk it is about to execute, with the stack it finds, and the chunk
in which it halts.
-/

namespace ChunkMachine

/-- One line of a trace. -/
inductive TraceEvent where
  /-- A chunk is about to be executed. -/
  | chunk (index : Nat) (visited : Bool) (slots : Chunk) (stack : Stack)
  /-- The program halted after so many chunks. -/
  | halt (index : Nat) (steps : Nat)
deriving DecidableEq

/-- The text of a trace line. -/
def TraceEvent.line : TraceEvent → String
  | .chunk index visited slots stack =>
    let marker := if visited then "visited" else "new"
    s!"[TRACE] chunk {Text.zeroFilled 4 index} ({marker}) {slots.text} stack={stack.bracketed}"
  | .halt index steps => s!"[TRACE] halt in chunk {Text.zeroFilled 4 index} after {steps} step(s)"

end ChunkMachine
