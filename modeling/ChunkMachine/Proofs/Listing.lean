import ChunkMachine.Listing
import ChunkMachine.Text.Begins
import Mathlib.Data.List.FinRange

/-!
# A listing loses nothing

A listing has one entry for each chunk, and the symbols of the program can be read off the entries in two ways:
from their symbols and from their mnemonics. They can be read off the printed lines as well. The numbers in a
line take as many columns as they need, so the symbols do not always stand at the same place; but lines of two
listings at the same place have the same numbers in front, and as both marks are two characters wide, the symbols
stand at the same place in these two. So the lines of different programs differ, wherever the arrow stands.

## What is proved

* `listing_eq`, `listingLines_eq`: the entries and the lines, chunk by chunk.
* `text_eq_of_line_eq`: lines of one number have the same symbols if they are the same.
* `eq_of_listingLines_eq`: listings with the same lines are those of one program.
* `countP_hasArrow`: how many lines have the arrow.
* `listing_faithful`: all of this together.
-/

namespace ChunkMachine

/-! ### Mnemonics -/

/-- The symbol of the operation with a mnemonic. -/
def Opcode.symbolOf? (mnemonic : String) : Option Char :=
  (Opcode.all.find? fun op => op.mnemonic = mnemonic).map Opcode.symbol

@[simp] theorem Opcode.symbolOf?_mnemonic (op : Opcode) :
    Opcode.symbolOf? op.mnemonic = some op.symbol := by
  cases op <;> rfl

theorem mapM_symbolOf? (ops : List Opcode) :
    (ops.map Opcode.mnemonic).mapM Opcode.symbolOf? = some (ops.map Opcode.symbol) := by
  induction ops with
  | nil => rfl
  | cons op ops ih =>
    rw [List.map_cons, List.mapM_cons, Opcode.symbolOf?_mnemonic, ih]
    rfl

/-! ### Lines -/

/-- The line has the arrow of the current chunk. -/
def hasArrow (line : String) : Bool := Text.begins "->" line

theorem length_text (c : Chunk) : c.text.toList.length = 5 := by
  rw [Chunk.text, String.toList_ofList, List.length_map]
  exact c.length_toList

/-- The symbols of a chunk tell its operations. -/
theorem text_injective {c d : Chunk} (h : c.text = d.text) : c = d := by
  have hsymbols : c.toList.map Opcode.symbol = d.toList.map Opcode.symbol :=
    String.ofList_injective h
  exact Vector.toList_inj.1 (List.map_injective_iff.2 (fun _ _ => Opcode.symbol_injective) hsymbols)

/-- What stands before the symbols in the line of a chunk, but for the mark. -/
def lineHead (k : Nat) : String :=
  Text.zeroFilled 4 k ++ " @" ++ Text.zeroFilled 4 (k * slotsPerChunk) ++ ": "

theorem line_ofChunk (k : Nat) (c : Chunk) (mark : String) : ∃ rest,
    (Entry.ofChunk k c).line mark = mark ++ lineHead k ++ (c.text ++ rest) := by
  refine ⟨"  " ++ " ".intercalate (c.toList.map Opcode.mnemonic), ?_⟩
  simp only [Entry.line, Entry.ofChunk, lineHead, String.append_assoc]

/-- **Lines of one number have the same symbols if they are the same**, whatever marks of one width they have. -/
theorem text_eq_of_line_eq {k : Nat} {c d : Chunk} {mark mark' : String}
    (hmark : mark.toList.length = mark'.toList.length)
    (h : (Entry.ofChunk k c).line mark = (Entry.ofChunk k d).line mark') : c.text = d.text := by
  obtain ⟨rest, hc⟩ := line_ofChunk k c mark
  obtain ⟨rest', hd⟩ := line_ofChunk k d mark'
  rw [hc, hd] at h
  have hlists := congrArg String.toList h
  simp only [String.toList_append] at hlists
  have hbehind := (List.append_inj hlists (by simp [hmark])).2
  exact String.toList_inj.1 (List.append_inj hbehind (by rw [length_text, length_text])).1

theorem length_mark (p : Prop) [Decidable p] :
    (if p then currentMark else noMark).toList.length = 2 := by
  split <;> rfl

/-- A line has the arrow just if it has the mark of the current one. -/
theorem hasArrow_line (k : Nat) (c : Chunk) (p : Prop) [Decidable p] :
    hasArrow ((Entry.ofChunk k c).line (if p then currentMark else noMark)) = decide p := by
  obtain ⟨rest, hline⟩ := line_ofChunk k c (if p then currentMark else noMark)
  rw [hline, hasArrow, Text.begins]
  by_cases hp : p
  · simp [hp, currentMark]
  · simp [hp, noMark, List.isPrefixOf]

namespace Program

variable (p : Program)

/-! ### Listings, chunk by chunk -/

/-- The entry of a chunk. -/
def entryOf (k : Fin p.chunks.size) : Entry := Entry.ofChunk k p.chunks[k]

/-- The line of a chunk. -/
def lineOf (current : Option Int) (k : Fin p.chunks.size) : String :=
  (p.entryOf k).line (if current = some (k : Int) then currentMark else noMark)

theorem listing_eq : p.listing = (List.finRange p.chunks.size).map p.entryOf := by
  refine List.ext_getElem (by simp [listing]) fun k hk hk' => ?_
  simp [listing, entryOf]

theorem listingLines_eq (current : Option Int) :
    listingLines p.listing current = (List.finRange p.chunks.size).map (p.lineOf current) := by
  rw [listingLines, listing_eq, List.map_map]
  rfl

/-- The symbols of the entries are those of the program. -/
theorem join_text_listing : String.join (p.listing.map Entry.text) = p.commands := by
  have hchunks : p.listing.map Entry.text = p.chunks.toList.map Chunk.text := by
    rw [← List.zipIdx_map_fst 0 p.chunks.toList, List.map_map, listing, List.map_map]
    rfl
  rw [hchunks, ← String.toList_inj]
  simp [Chunk.text, commands, opcodes, List.map_flatMap, List.flatMap_map]

/-- The mnemonics of the entries are those of the operations of the program. -/
theorem flatMap_mnemonics_listing :
    p.listing.flatMap Entry.mnemonics = p.opcodes.map Opcode.mnemonic := by
  rw [opcodes, ← List.zipIdx_map_fst 0 p.chunks.toList, List.flatMap_map, List.map_flatMap, listing,
    List.flatMap_map]
  rfl

/-! ### Lines of two programs -/

/-- **Listings with the same lines are those of one program**, wherever the arrows stand. -/
theorem eq_of_listingLines_eq {p q : Program} {current current' : Option Int}
    (h : listingLines p.listing current = listingLines q.listing current') : p = q := by
  rw [listingLines_eq, listingLines_eq] at h
  have hsize : p.chunks.size = q.chunks.size := by simpa using congrArg List.length h
  have hchunks : p.chunks = q.chunks := by
    refine Array.ext hsize fun k hk hk' => ?_
    have hline := congrArg (fun lines : List String => lines[k]?) h
    simp only [List.getElem?_map, List.getElem?_eq_getElem, List.length_finRange, hk, hk',
      List.getElem_finRange, Option.map_some, Option.some.injEq] at hline
    exact text_injective (text_eq_of_line_eq (by rw [length_mark, length_mark]) hline)
  cases p
  cases q
  cases hchunks
  rfl

/-! ### The arrow -/

theorem hasArrow_lineOf {current : Option Int} {k : Fin p.chunks.size} :
    hasArrow (p.lineOf current k) = true ↔ current = some (k : Int) := by
  rw [lineOf, entryOf, hasArrow_line, decide_eq_true_iff]

/-- **One of some lines has the arrow if the current chunk is among theirs, and else none.** -/
theorem countP_hasArrow {l : List (Fin p.chunks.size)} (hl : l.Nodup) (current : Option Int) :
    (l.map (p.lineOf current)).countP hasArrow = if ∃ k ∈ l, current = some (k : Int) then 1 else 0 := by
  rw [List.countP_map]
  split
  · rename_i hexists
    obtain ⟨c, hc, rfl⟩ := hexists
    have harrow : hasArrow ∘ p.lineOf (some (c : Int)) = (· == c) := by
      funext k
      rw [Bool.eq_iff_iff, Function.comp_apply, hasArrow_lineOf, beq_iff_eq, Option.some.injEq, Fin.ext_iff]
      omega
    rw [harrow]
    exact List.count_eq_one_of_mem hl hc
  · rename_i hnone
    exact List.countP_eq_zero.2 fun k hk harrow => hnone ⟨k, hk, p.hasArrow_lineOf.1 harrow⟩

/-- The arrow is in the line of the current chunk. -/
theorem hasArrow_getElem? {current : Option Int} {k : Nat} {line : String}
    (h : (listingLines p.listing current)[k]? = some line) :
    hasArrow line = true ↔ current = some (k : Int) := by
  rw [listingLines_eq, List.getElem?_map] at h
  obtain ⟨i, hi, rfl⟩ := Option.map_eq_some_iff.1 h
  obtain ⟨hk, rfl⟩ := List.getElem?_eq_some_iff.1 hi
  rw [hasArrow_lineOf, List.getElem_finRange]
  rfl

/-! ### The account of a listing -/

/-- **A listing loses nothing.** The listing of a program has one entry for each chunk, which holds the number of
the chunk and the offset of its first symbol. The symbols of the entries one after the other are those of the
program, and so are the symbols that their mnemonics stand for. Programs whose listings are printed in the same
lines have the same symbols, whatever chunks are current. And just one line has the arrow if the current chunk is
one of the program, namely the line of this chunk; otherwise none has it. -/
theorem listing_faithful (p : Program) :
    p.listing.length = p.chunkCount ∧
    (∀ (k : Nat) entry, p.listing[k]? = some entry → entry.chunk = k ∧ entry.offset = 5 * k) ∧
    String.join (p.listing.map Entry.text) = p.commands ∧
    (p.listing.flatMap Entry.mnemonics).mapM Opcode.symbolOf? = some p.commands.toList ∧
    (∀ (q : Program) (current current' : Option Int),
      listingLines p.listing current = listingLines q.listing current' → p.commands = q.commands) ∧
    ∀ current : Option Int,
      ((listingLines p.listing current).countP hasArrow = 1 ↔
        ∃ k < p.chunkCount, current = some (k : Int)) ∧
      ∀ (k : Nat) line, (listingLines p.listing current)[k]? = some line →
        (hasArrow line = true ↔ current = some (k : Int)) := by
  refine ⟨?_, ?_, p.join_text_listing, ?_, ?_, fun current => ⟨?_, fun k line => p.hasArrow_getElem?⟩⟩
  · simp [listing, chunkCount]
  · intro k entry hentry
    rw [listing_eq, List.getElem?_map] at hentry
    obtain ⟨i, hi, rfl⟩ := Option.map_eq_some_iff.1 hentry
    obtain ⟨hk, rfl⟩ := List.getElem?_eq_some_iff.1 hi
    rw [List.getElem_finRange]
    exact ⟨rfl, Int.mul_comm _ _⟩
  · rw [flatMap_mnemonics_listing, mapM_symbolOf?, commands, String.toList_ofList]
  · intro q current current' h
    rw [eq_of_listingLines_eq h]
  · rw [listingLines_eq, p.countP_hasArrow (List.nodup_finRange _)]
    split
    · rename_i hexists
      obtain ⟨k, -, hk⟩ := hexists
      exact iff_of_true rfl ⟨k, k.isLt, hk⟩
    · rename_i hnone
      refine iff_of_false Nat.zero_ne_one ?_
      rintro ⟨k, hk, hcurrent⟩
      exact hnone ⟨⟨k, hk⟩, List.mem_finRange _, hcurrent⟩

/-- Two chunks of which the second is current. -/
example : listingLines (listing ⟨#[#v[.inc, .skipNew, .halt, .nop, .nop], #v[.ret, .nop, .nop, .nop, .nop]],
      by simp⟩) (some 1) =
    ["  0000 @0000: 58BFF  INC SKIPNEW HALT NOP NOP", "->0001 @0005: AFFFF  RET NOP NOP NOP NOP"] := by
  decide +kernel

end Program

end ChunkMachine
