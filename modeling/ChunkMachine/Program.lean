import ChunkMachine.Opcode

/-!
# Programs

A program is a non-empty sequence of chunks of five operations. Its text is the symbols of these
operations one after the other, laid out with any blanks. `Program.parse` reads such a text, and
`Program.ofCommands` reads the bare symbols. They refuse the same texts, but a text with two faults
is refused for a foreign character by the first and for its length by the second.
-/

namespace ChunkMachine

/-- Five operations that are executed together. -/
abbrev Chunk := Vector Opcode slotsPerChunk

/-- The symbols of a chunk. -/
def Chunk.text (c : Chunk) : String := String.ofList (c.toList.map Opcode.symbol)

/-- A non-empty sequence of chunks. -/
structure Program where
  chunks : Array Chunk
  nonempty : chunks ≠ #[]
deriving DecidableEq

/-- Why there is no program to run. -/
inductive LoadFault where
  /-- The file at this path cannot be read. -/
  | unreadable (path : String)
  /-- The path holds a null character, which no file name does. -/
  | nullByte
  /-- A character is neither a symbol nor a blank. -/
  | unknownSymbol (c : Char)
  /-- There are no symbols, or the last chunk is incomplete. -/
  | badLength
deriving DecidableEq

/-- The wording of a load fault. -/
def LoadFault.message : LoadFault → String
  | .unreadable path => "Unable to open " ++ path ++ "!"
  | .nullByte => "embedded null byte"
  | .unknownSymbol c => "Unknown character " ++ c.toString ++ " encountered!"
  | .badLength => "Inadequate code length!"

namespace Program

/-- The number of chunks. -/
def chunkCount (p : Program) : Nat := p.chunks.size

/-- The operations of a program, chunk after chunk. -/
def opcodes (p : Program) : List Opcode := p.chunks.toList.flatMap (·.toList)

/-- The symbols of a program, without blanks. -/
def commands (p : Program) : String := String.ofList (p.opcodes.map Opcode.symbol)

theorem chunkCount_pos (p : Program) : 0 < p.chunkCount :=
  Array.size_pos_iff.2 p.nonempty

/-! ### Reading -/

/-- Cut a list of operations into chunks; `none` if the last one is incomplete. -/
def cut : List Opcode → Option (List Chunk)
  | [] => some []
  | a :: b :: c :: d :: e :: rest => (cut rest).map (#v[a, b, c, d, e] :: ·)
  | _ => none

/-- The program of a list of operations. -/
def ofOpcodes (ops : List Opcode) : Except LoadFault Program :=
  match cut ops with
  | none => .error .badLength
  | some [] => .error .badLength
  | some (c :: cs) => .ok ⟨(c :: cs).toArray, by simp⟩

/-- The operations that a list of symbols stands for, or its first character that is no symbol. -/
def readSymbols : List Char → Except LoadFault (List Opcode)
  | [] => .ok []
  | c :: cs =>
    match Opcode.ofSymbol? c with
    | none => .error (.unknownSymbol c)
    | some op => (readSymbols cs).map (op :: ·)

/-- A text without its blanks. -/
def squeeze (text : String) : List Char := text.toList.filter fun c => !blanks.contains c

/-- Read a program text. A foreign character is reported before a wrong length. -/
def parse (text : String) : Except LoadFault Program :=
  (readSymbols (squeeze text)).bind ofOpcodes

/-- Read bare symbols. A wrong length is reported before a foreign character. -/
def ofCommands (commands : String) : Except LoadFault Program :=
  if commands.length = 0 ∨ commands.length % slotsPerChunk ≠ 0 then .error .badLength
  else (readSymbols commands.toList).bind ofOpcodes

end Program

end ChunkMachine
