import ChunkMachine.Chunk.Execute

/-!
# Faults

A fault ends a program: the engine records it and stays failed. Two things can leave a step without
ending the program, namely an interrupt by the user and a chunk number set from outside that names
no chunk.
-/

namespace ChunkMachine

/-- Why a program failed. -/
inductive Fault where
  /-- An operation of a chunk found too few words on the stack. -/
  | underflow (cause : Underflow) (opcode : Opcode) (chunk : Nat)
  /-- A chunk left no word to name the next one. -/
  | emptyStack
  /-- The top word names no chunk. -/
  | invalidJump (target : Word)
  /-- There was no memory for a word that was read. -/
  | outOfMemory
deriving DecidableEq

/-- The wording of a fault. -/
def Fault.message : Fault → String
  | .underflow cause _ _ => cause.message
  | .emptyStack => "Can't have an empty stack upon reaching the end of a chunk!"
  | .invalidJump target => s!"Cannot go to nonexistent chunk {target.toNat}!"
  | .outOfMemory => "Unable to allocate additional stack space!"

/-- What broke a step off. -/
inductive Abort where
  /-- The program failed. -/
  | fault (fault : Fault)
  /-- The user interrupted a read. -/
  | interrupted
  /-- The engine stood on no chunk. -/
  | index (fault : IndexFault)
deriving DecidableEq

end ChunkMachine
