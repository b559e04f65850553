import ChunkMachine.Program
import ChunkMachine.Text.Columns

/-!
# Listings

The listing of a program has one entry per chunk: its number, the offset of its first symbol, its
symbols and their mnemonics. In print an arrow marks the entry of the current chunk.
-/

namespace ChunkMachine

/-- The entry of a chunk in a listing. -/
structure Entry where
  chunk : Int
  offset : Int
  text : String
  mnemonics : List String
deriving DecidableEq

/-- The mark of a line that is not the current one. -/
def noMark : String := "  "

/-- The mark of the current line. -/
def currentMark : String := "->"

/-- The entry of the chunk with a given number. -/
def Entry.ofChunk (index : Nat) (chunk : Chunk) : Entry :=
  { chunk := index
    offset := index * slotsPerChunk
    text := chunk.text
    mnemonics := chunk.toList.map Opcode.mnemonic }

/-- The line of an entry. -/
def Entry.line (entry : Entry) (mark : String) : String :=
  mark ++ Text.zeroFilled 4 entry.chunk ++ " @" ++ Text.zeroFilled 4 entry.offset ++ ": " ++
    entry.text ++ "  " ++ " ".intercalate entry.mnemonics

/-- The listing of a program. -/
def Program.listing (p : Program) : List Entry :=
  p.chunks.toList.zipIdx.map fun (chunk, index) => Entry.ofChunk index chunk

/-- The lines of a listing, with the entry of the current chunk marked. -/
def listingLines (listing : List Entry) (current : Option Int) : List String :=
  listing.map fun entry =>
    entry.line (if current = some entry.chunk then currentMark else noMark)

end ChunkMachine
