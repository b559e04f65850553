/-!
# Opcodes

A program is written in sixteen symbols, `0` to `9` and `A` to `F`. Fifteen of them name an
operation; the last one, `F`, does nothing. This module fixes the correspondence between symbols,
operations and the mnemonics that listings print, so that the loader, the machine and the listing
cannot disagree about it.
-/

namespace ChunkMachine

/-- The operation of one slot of a chunk. -/
inductive Opcode where
  /-- Push the next input byte, or `0` at the end of the input. -/
  | read
  /-- Pop a value and output its low byte. -/
  | write
  /-- Remove the top value. -/
  | drop
  /-- Push a copy of the top value. -/
  | dup
  /-- Exchange the two top values. -/
  | swap
  /-- Add one to the top value. -/
  | inc
  /-- Subtract one from the top value, stopping at zero. -/
  | dec
  /-- Replace the two top values by their sum. -/
  | add
  /-- Skip the next slot while the chunk is executed for the first time. -/
  | skipNew
  /-- Send the top value to the bottom. -/
  | rot
  /-- End the chunk. -/
  | ret
  /-- End the program. -/
  | halt
  /-- Skip the next slot when the chunk has been executed before. -/
  | skipOld
  /-- Bring the values into a random order. -/
  | shuf
  /-- Replace the two top values by the distance between them. -/
  | diff
  /-- Do nothing. -/
  | nop
deriving DecidableEq, Inhabited

/-- The number of slots in a chunk. -/
def slotsPerChunk : Nat := 5

/-- The characters a program may be laid out with: space, tab, line feed, vertical tab, form feed
and carriage return. -/
def blanks : List Char := [' ', '\t', '\n', '\x0b', '\x0c', '\x0d']

namespace Opcode

/-- Every operation with a name of its own, in the order of the symbols. -/
def named : List Opcode :=
  [read, write, drop, dup, swap, inc, dec, add, skipNew, rot, ret, halt, skipOld, shuf, diff]

/-- Every operation, in the order of the symbols. -/
def all : List Opcode := named ++ [nop]

/-- The symbol an operation is written with. -/
def symbol : Opcode → Char
  | read => '0'
  | write => '1'
  | drop => '2'
  | dup => '3'
  | swap => '4'
  | inc => '5'
  | dec => '6'
  | add => '7'
  | skipNew => '8'
  | rot => '9'
  | ret => 'A'
  | halt => 'B'
  | skipOld => 'C'
  | shuf => 'D'
  | diff => 'E'
  | nop => 'F'

/-- The name an operation has in listings. -/
def mnemonic : Opcode → String
  | read => "READ"
  | write => "WRITE"
  | drop => "DROP"
  | dup => "DUP"
  | swap => "SWAP"
  | inc => "INC"
  | dec => "DEC"
  | add => "ADD"
  | skipNew => "SKIPNEW"
  | rot => "ROT"
  | ret => "RET"
  | halt => "HALT"
  | skipOld => "SKIPOLD"
  | shuf => "SHUF"
  | diff => "DIFF"
  | nop => "NOP"

/-- The operation that a program symbol stands for; `none` for a character that is not one. -/
def ofSymbol? : Char → Option Opcode
  | '0' => some read
  | '1' => some write
  | '2' => some drop
  | '3' => some dup
  | '4' => some swap
  | '5' => some inc
  | '6' => some dec
  | '7' => some add
  | '8' => some skipNew
  | '9' => some rot
  | 'A' => some ret
  | 'B' => some halt
  | 'C' => some skipOld
  | 'D' => some shuf
  | 'E' => some diff
  | 'F' => some nop
  | _ => none

/-- The operation that any character stands for: one that is not a program symbol does nothing. -/
def ofSymbol (c : Char) : Opcode := (ofSymbol? c).getD nop

/-- The mnemonic of a text that may be a symbol: anything but one named symbol is `NOP`. -/
def mnemonicOf (text : String) : String :=
  match text.toList with
  | [c] => (ofSymbol c).mnemonic
  | _ => nop.mnemonic

@[simp] theorem ofSymbol?_symbol (op : Opcode) : ofSymbol? op.symbol = some op := by
  cases op <;> rfl

/-- Only the symbol of an operation stands for it. -/
theorem symbol_of_ofSymbol? {c : Char} {op : Opcode} (h : ofSymbol? c = some op) :
    op.symbol = c := by
  unfold ofSymbol? at h
  split at h <;> simp_all <;> (subst h; rfl)

theorem symbol_injective {a b : Opcode} (h : a.symbol = b.symbol) : a = b := by
  have := congrArg ofSymbol? h
  simpa using this

end Opcode

end ChunkMachine
