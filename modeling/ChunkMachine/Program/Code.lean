import ChunkMachine.Program

/-!
# Code: a program with its visited flags

While a program runs, every chunk carries a flag that says whether it has been executed. Chunks are
looked up by number. Flags are looked up by position, where a negative position counts from the end.
-/

namespace ChunkMachine

/-- A position that names nothing. -/
inductive IndexFault where
  /-- There is no chunk of this number among so many. -/
  | noChunk (index : Int) (count : Nat)
  /-- There is no flag to read at a position. -/
  | noFlag
  /-- There is no flag to set at a position. -/
  | noFlagToSet
  /-- A position is beyond what a machine word can hold. -/
  | tooFar
  /-- A chunk has no symbol in the slot that comes next. -/
  | noSlot
deriving DecidableEq

/-- The wording of an index fault. -/
def IndexFault.message : IndexFault → String
  | .noChunk index count => s!"chunk {index} out of range (0-{(count : Int) - 1})"
  | .noFlag => "list index out of range"
  | .noFlagToSet => "list assignment index out of range"
  | .tooFar => "cannot fit 'int' into an index-sized integer"
  | .noSlot => "string index out of range"

/-- A program and one flag per chunk. -/
structure Code where
  program : Program
  visited : Array Bool
deriving DecidableEq

namespace Code

/-- A program of which no chunk has been executed. -/
def ofProgram (p : Program) : Code := ⟨p, Array.replicate p.chunkCount false⟩

/-- The number of chunks. -/
def chunkCount (c : Code) : Nat := c.program.chunkCount

/-- The chunk of a number. -/
def chunk (c : Code) (index : Int) : Except IndexFault Chunk :=
  if index < 0 then .error (.noChunk index c.chunkCount)
  else
    match c.program.chunks[index.toNat]? with
    | some chunk => .ok chunk
    | none => .error (.noChunk index c.chunkCount)

/-- The flag position that an integer names: a negative one counts from the end. If it names none,
the fault is `missing`, or that it does not fit into a signed word of 64 bits. -/
def flagPosition (c : Code) (index : Int) (missing : IndexFault) : Except IndexFault Nat :=
  let i := if index < 0 then index + c.visited.size else index
  if 0 ≤ i ∧ i < c.visited.size then .ok i.toNat
  else if -9223372036854775808 ≤ index ∧ index ≤ 9223372036854775807 then .error missing
  else .error .tooFar

/-- Has the chunk at a position been executed? -/
def isVisited (c : Code) (index : Int) : Except IndexFault Bool :=
  (c.flagPosition index .noFlag).map fun i => c.visited.getD i false

/-- Set the flag of a chunk number. -/
def mark (c : Code) (index : Nat) : Code := { c with visited := c.visited.setIfInBounds index true }

/-- Set the flag at a position. -/
def markVisited (c : Code) (index : Int) : Except IndexFault Code :=
  (c.flagPosition index .noFlagToSet).map c.mark

/-- Clear every flag. -/
def resetVisited (c : Code) : Code := ofProgram c.program

/-- The number of flags that are set. -/
def visitedCount (c : Code) : Nat := c.visited.count true

@[simp] theorem program_mark (c : Code) (i : Nat) : (c.mark i).program = c.program := rfl

@[simp] theorem size_visited_mark (c : Code) (i : Nat) :
    (c.mark i).visited.size = c.visited.size := by
  simp [mark]

end Code

end ChunkMachine
