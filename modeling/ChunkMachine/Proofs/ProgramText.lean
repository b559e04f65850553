import ChunkMachine.Files
import ChunkMachine.Proofs.Append

/-!
# Program texts

A program text is read in two stages: its characters are read one by one, and what they stand for is cut
into chunks. Either stage can refuse the text, and the first one has the first word. What is accepted and
what is refused is said here without the reader: a text is well formed if there are only symbols besides its
blanks, and at least one, and as many as fill whole chunks (`WellFormed`). The program that is read from it
has these symbols and no others (`Spells`), and a text that is not well formed is refused for a reason of
its own (`Refused`).

## What is proved

* `readSymbols_eq_ok_iff`, `readSymbols_eq_error_iff`: what the first stage makes of a list of characters.
* `cut_eq_some_iff`, `cut_eq_none_iff`: what the second stage makes of a list of operations.
* `parse_eq_ok_iff_spells`, `parse_eq_error_iff`: what both make of a text.
* `parse_iff_wellFormed`: all of this together, with what follows for blanks and for files.
-/

namespace ChunkMachine

namespace Program

/-! ### The format -/

/-- The characters that a text may be laid out with: space, tab, line feed, vertical tab, form feed and
carriage return. -/
def IsBlank (c : Char) : Prop := c ∈ [' ', '\t', '\n', '\x0b', '\x0c', '\x0d']

instance (c : Char) : Decidable (IsBlank c) :=
  inferInstanceAs (Decidable (c ∈ [' ', '\t', '\n', '\x0b', '\x0c', '\x0d']))

/-- The characters that operations are written with. -/
def IsSymbol (c : Char) : Prop := c ∈ "0123456789ABCDEF".toList

instance (c : Char) : Decidable (IsSymbol c) :=
  inferInstanceAs (Decidable (c ∈ "0123456789ABCDEF".toList))

/-- The characters of a text that are not blank. -/
def bare (text : String) : List Char := text.toList.filter fun c => ¬ IsBlank c

/-- The characters are symbols, at least one, and as many as fill whole chunks. -/
structure WellFormed (w : List Char) : Prop where
  ne_nil : w ≠ []
  symbols : ∀ c ∈ w, IsSymbol c
  whole : 5 ∣ w.length

/-- The program consists of the given symbols: they are its commands, there is a chunk for every five of
them, the chunk of a number has the five that stand at its place, and the chunks one after the other have
them all. -/
structure Spells (p : Program) (w : List Char) : Prop where
  commands : p.commands = String.ofList w
  chunkCount : p.chunkCount = w.length / 5
  chunk : ∀ i < p.chunkCount, ∃ c, (Code.ofProgram p).chunk i = .ok c ∧ c.text.length = 5 ∧
    c.text.toList = (w.drop (5 * i)).take 5
  joined : ∃ chunks, (List.range p.chunkCount).mapM (fun (i : Nat) => (Code.ofProgram p).chunk i) = .ok chunks ∧
    String.join (chunks.map Chunk.text) = String.ofList w

/-- Why a text is refused. -/
inductive Refused (text : String) : LoadFault → Prop where
  /-- The first character that is neither blank nor a symbol, wherever it stands and however long the text
  is. -/
  | foreign {before after : List Char} {c : Char} (htext : text.toList = before ++ c :: after)
    (hbefore : ∀ d ∈ before, IsBlank d ∨ IsSymbol d) (hblank : ¬ IsBlank c) (hsymbol : ¬ IsSymbol c) :
    Refused text (.unknownSymbol c)
  /-- There are symbols only, but none, or not as many as fill whole chunks. -/
  | length (hsymbols : ∀ c ∈ bare text, IsSymbol c) (hlength : bare text = [] ∨ ¬ 5 ∣ (bare text).length) :
    Refused text .badLength

theorem squeeze_eq_bare (text : String) : squeeze text = bare text := by
  have hblank : ∀ c, (!blanks.contains c) = decide (¬ IsBlank c) := by
    intro c
    simp [IsBlank, blanks]
  simp only [squeeze, bare, hblank]

theorem isSymbol_symbol (op : Opcode) : IsSymbol op.symbol := by
  cases op <;> decide

/-- A character is a symbol just if it stands for an operation. -/
theorem isSymbol_iff {c : Char} : IsSymbol c ↔ ∃ op, Opcode.ofSymbol? c = some op := by
  constructor
  · intro h
    have hsymbols : "0123456789ABCDEF".toList = Opcode.all.map Opcode.symbol := by decide
    rw [IsSymbol, hsymbols] at h
    obtain ⟨op, -, rfl⟩ := List.mem_map.1 h
    exact ⟨op, Opcode.ofSymbol?_symbol op⟩
  · rintro ⟨op, h⟩
    rw [← Opcode.symbol_of_ofSymbol? h]
    exact isSymbol_symbol op

/-! ### Characters -/

theorem readSymbols_eq_ok_iff {cs : List Char} : ∀ {ops : List Opcode},
    readSymbols cs = .ok ops ↔ cs = ops.map Opcode.symbol := by
  induction cs with
  | nil => intro ops; simp [readSymbols, eq_comm]
  | cons c cs ih =>
    intro ops
    constructor
    · intro h
      rw [readSymbols] at h
      cases hc : Opcode.ofSymbol? c with
      | none => simp [hc] at h
      | some op =>
        cases hcs : readSymbols cs with
        | error fault => simp [hc, hcs, Except.map] at h
        | ok rest =>
          simp only [hc, hcs, Except.map, Except.ok.injEq] at h
          rw [← h, List.map_cons, ← ih.1 hcs, Opcode.symbol_of_ofSymbol? hc]
    · intro h
      cases ops with
      | nil => cases h
      | cons op ops =>
        obtain ⟨rfl, hcs⟩ := List.cons.inj h
        rw [readSymbols, Opcode.ofSymbol?_symbol]
        simp only [ih.2 hcs, Except.map]

/-- The first stage refuses the first character that is no symbol. -/
theorem readSymbols_eq_error_iff {cs : List Char} {fault : LoadFault} :
    readSymbols cs = .error fault ↔
      ∃ c, cs.find? (fun c => ¬ IsSymbol c) = some c ∧ fault = .unknownSymbol c := by
  induction cs with
  | nil => simp [readSymbols]
  | cons c cs ih =>
    rw [readSymbols, List.find?_cons]
    cases hc : Opcode.ofSymbol? c with
    | none =>
      have hforeign : ¬ IsSymbol c := by
        rw [isSymbol_iff, hc]
        simp
      simp [hforeign, eq_comm]
    | some op =>
      have hsymbol : IsSymbol c := isSymbol_iff.2 ⟨op, hc⟩
      simp only [hsymbol, not_true, decide_false, ← ih]
      cases readSymbols cs <;> simp [Except.map]

/-! ### Chunks -/

theorem cut_chunk (chunk : Chunk) (rest : List Opcode) :
    cut (chunk.toList ++ rest) = (cut rest).map (chunk :: ·) := by
  obtain ⟨o₀, o₁, o₂, o₃, o₄, rfl⟩ : ∃ o₀ o₁ o₂ o₃ o₄, chunk = #v[o₀, o₁, o₂, o₃, o₄] := by
    refine ⟨chunk[0], chunk[1], chunk[2], chunk[3], chunk[4], Vector.ext fun i hi => ?_⟩
    obtain rfl | rfl | rfl | rfl | rfl : i = 0 ∨ i = 1 ∨ i = 2 ∨ i = 3 ∨ i = 4 := by
      have : i < 5 := hi
      omega
    all_goals rfl
  rfl

/-- The second stage cuts a list into the chunks that it is made of. -/
theorem cut_eq_some_iff {ops : List Opcode} {chunks : List Chunk} :
    cut ops = some chunks ↔ ops = chunks.flatMap (·.toList) := by
  constructor
  · intro h
    fun_induction cut ops generalizing chunks with
    | case1 =>
      cases h
      rfl
    | case2 a b c d e rest ih =>
      obtain ⟨tail, htail, rfl⟩ := Option.map_eq_some_iff.1 h
      show a :: b :: c :: d :: e :: rest = a :: b :: c :: d :: e :: tail.flatMap (·.toList)
      rw [← ih htail]
    | case3 => cases h
  · rintro rfl
    induction chunks with
    | nil => rfl
    | cons c chunks ih => rw [List.flatMap_cons, cut_chunk, ih, Option.map_some]

/-- A list cannot be cut just if the last chunk would be incomplete. -/
theorem cut_eq_none_iff (ops : List Opcode) : cut ops = none ↔ ¬ 5 ∣ ops.length := by
  fun_induction cut ops with
  | case1 => simp
  | case2 a b c d e rest ih =>
    rw [Option.map_eq_none_iff, ih]
    simp only [List.length_cons]
    omega
  | case3 ops hne hshort =>
    -- what is neither empty nor begins with a chunk has one to four operations
    rcases ops with _ | ⟨a, _ | ⟨b, _ | ⟨c, _ | ⟨d, _ | ⟨e, rest⟩⟩⟩⟩⟩
    · exact absurd rfl hne
    · simp
    · simp
    · simp
    · simp
    · exact absurd rfl (hshort a b c d e rest)

theorem length_flatMap_chunks (chunks : List Chunk) :
    (chunks.flatMap (·.toList)).length = 5 * chunks.length := by
  induction chunks with
  | nil => rfl
  | cons c chunks ih =>
    rw [List.flatMap_cons, List.length_append, ih, Vector.length_toList, List.length_cons]
    show 5 + 5 * chunks.length = 5 * (chunks.length + 1)
    omega

theorem drop_flatMap_chunks {chunks : List Chunk} : ∀ {i : Nat} {c : Chunk}, chunks[i]? = some c →
    ((chunks.flatMap (·.toList)).drop (5 * i)).take 5 = c.toList := by
  induction chunks with
  | nil => intro i c h; simp at h
  | cons d chunks ih =>
    intro i c h
    have hlength : d.toList.length = 5 := d.length_toList
    rw [List.flatMap_cons]
    cases i with
    | zero =>
      obtain rfl : d = c := by simpa using h
      exact List.take_left' hlength
    | succ i =>
      have hdrop : 5 * (i + 1) = d.toList.length + 5 * i := by omega
      rw [hdrop, List.drop_length_add_append]
      exact ih (by simpa using h)

/-! ### Texts -/

theorem parse_eq_ok_iff_bare {text : String} {p : Program} :
    parse text = .ok p ↔ bare text = p.opcodes.map Opcode.symbol := by
  rw [parse_eq_ok_iff, squeeze_eq_bare]
  simp only [readSymbols_eq_ok_iff, cut_eq_some_iff]
  constructor
  · rintro ⟨ops, hbare, rfl⟩
    exact hbare
  · intro hbare
    exact ⟨p.opcodes, hbare, rfl⟩

theorem length_opcodes (p : Program) : p.opcodes.length = 5 * p.chunkCount :=
  length_flatMap_chunks p.chunks.toList

theorem toList_commands (p : Program) : p.commands.toList = p.opcodes.map Opcode.symbol := by
  rw [commands, String.toList_ofList]

theorem chunk_ofProgram {p : Program} {i : Nat} (hi : i < p.chunks.size) :
    (Code.ofProgram p).chunk i = .ok p.chunks[i] :=
  Code.chunk_eq_ok_iff.2 ⟨Int.natCast_nonneg i, by simp [Code.ofProgram, hi]⟩

/-- Looking the chunks up one after the other gives them all. -/
theorem mapM_chunk (p : Program) :
    (List.range p.chunkCount).mapM (fun (i : Nat) => (Code.ofProgram p).chunk i) = .ok p.chunks.toList := by
  have hfirst : ∀ k ≤ p.chunks.size, (List.range k).mapM (fun (i : Nat) => (Code.ofProgram p).chunk i) =
      .ok (p.chunks.toList.take k) := by
    intro k hk
    induction k with
    | zero => rfl
    | succ k ih =>
      have hlast : p.chunks.toList.take (k + 1) = p.chunks.toList.take k ++ [p.chunks[k]] := by
        rw [List.take_succ_eq_append_getElem (by rw [Array.length_toList]; exact hk), Array.getElem_toList]
      rw [List.range_succ, List.mapM_append, ih (by omega), hlast]
      simp [chunk_ofProgram hk, bind, Except.bind, pure, Except.pure]
  rw [chunkCount, hfirst p.chunks.size (Nat.le_refl _), List.take_of_length_le (by simp)]

/-- A program consists of the symbols of its operations. -/
theorem spells_opcodes (p : Program) : p.Spells (p.opcodes.map Opcode.symbol) where
  commands := rfl
  chunkCount := by
    rw [List.length_map, length_opcodes]
    omega
  chunk i hi := by
    have hi : i < p.chunks.size := hi
    refine ⟨p.chunks[i], ?_, ?_, ?_⟩
    · exact chunk_ofProgram hi
    · rw [Chunk.text, String.length_ofList, List.length_map]
      exact (p.chunks[i]).length_toList
    · have hslots : ((p.opcodes).drop (5 * i)).take 5 = (p.chunks[i]).toList :=
        drop_flatMap_chunks (by simp [hi])
      rw [← List.map_drop, ← List.map_take, hslots, Chunk.text, String.toList_ofList]
  joined := by
    refine ⟨p.chunks.toList, p.mapM_chunk, ?_⟩
    rw [← String.toList_inj]
    simp [Chunk.text, opcodes, List.map_flatMap, List.flatMap_map]

/-- **A text is read as the program that consists of its symbols.** -/
theorem parse_eq_ok_iff_spells {text : String} {p : Program} :
    parse text = .ok p ↔ p.Spells (bare text) := by
  rw [parse_eq_ok_iff_bare]
  constructor
  · intro h
    rw [h]
    exact p.spells_opcodes
  · intro h
    rw [← p.toList_commands, h.commands, String.toList_ofList]

theorem ofOpcodes_eq_error_iff {ops : List Opcode} {fault : LoadFault} :
    ofOpcodes ops = .error fault ↔ (ops = [] ∨ ¬ 5 ∣ ops.length) ∧ fault = .badLength := by
  rw [← cut_eq_none_iff]
  unfold ofOpcodes
  rcases hcut : cut ops with _ | _ | ⟨c, cs⟩
  · simp [eq_comm]
  · have hnil : ops = [] := cut_eq_some_iff.1 hcut
    simp [hnil, eq_comm]
  · have hne : ops ≠ [] := by
      rintro rfl
      cases hcut
    simp [hne]

/-- The first character besides the blanks that is no symbol is the first one that is neither. -/
theorem find?_bare_eq_some_iff {text : String} {c : Char} :
    (bare text).find? (fun c => ¬ IsSymbol c) = some c ↔
      ∃ before after, text.toList = before ++ c :: after ∧ (∀ d ∈ before, IsBlank d ∨ IsSymbol d) ∧
        ¬ IsBlank c ∧ ¬ IsSymbol c := by
  rw [bare, List.find?_filter, List.find?_eq_some_iff_append]
  constructor
  · rintro ⟨hforeign, before, after, htext, hbefore⟩
    obtain ⟨hblank, hsymbol⟩ : ¬ IsBlank c ∧ ¬ IsSymbol c := by simpa using hforeign
    refine ⟨before, after, htext, fun d hd => ?_, hblank, hsymbol⟩
    by_contra hforeign
    obtain ⟨hblank, hsymbol⟩ := not_or.1 hforeign
    have := hbefore d hd
    simp [hblank, hsymbol] at this
  · rintro ⟨before, after, htext, hbefore, hblank, hsymbol⟩
    refine ⟨by simp [hblank, hsymbol], before, after, htext, fun d hd => ?_⟩
    rcases hbefore d hd with h | h <;> simp [h]

/-- The reasons for which a text is refused, by what is found among its characters besides the blanks. -/
theorem refused_iff {text : String} {fault : LoadFault} :
    Refused text fault ↔
      (∃ c, (bare text).find? (fun c => ¬ IsSymbol c) = some c ∧ fault = .unknownSymbol c) ∨
      (bare text).find? (fun c => ¬ IsSymbol c) = none ∧ (bare text = [] ∨ ¬ 5 ∣ (bare text).length) ∧
        fault = .badLength := by
  simp only [find?_bare_eq_some_iff]
  constructor
  · rintro (⟨htext, hbefore, hblank, hsymbol⟩ | ⟨hsymbols, hlength⟩)
    · exact .inl ⟨_, ⟨_, _, htext, hbefore, hblank, hsymbol⟩, rfl⟩
    · exact .inr ⟨by simpa using hsymbols, hlength, rfl⟩
  · rintro (⟨c, ⟨before, after, htext, hbefore, hblank, hsymbol⟩, rfl⟩ | ⟨hsymbols, hlength, rfl⟩)
    · exact .foreign htext hbefore hblank hsymbol
    · exact .length (by simpa using hsymbols) hlength

/-- **A text is refused for its first foreign character, or else for its length.** -/
theorem parse_eq_error_iff {text : String} {fault : LoadFault} :
    parse text = .error fault ↔ Refused text fault := by
  rw [refused_iff, parse, squeeze_eq_bare]
  cases hread : readSymbols (bare text) with
  | error fault' =>
    obtain ⟨c, hc, rfl⟩ := readSymbols_eq_error_iff.1 hread
    show Except.error (LoadFault.unknownSymbol c) = .error fault ↔ _
    rw [hc]
    constructor
    · intro h
      cases h
      exact .inl ⟨c, rfl, rfl⟩
    · rintro (⟨c', hc', rfl⟩ | ⟨hnone, -⟩)
      · rw [Option.some.inj hc']
      · cases hnone
  | ok ops =>
    have hbare := readSymbols_eq_ok_iff.1 hread
    have hnone : (bare text).find? (fun c => ¬ IsSymbol c) = none := by
      rw [hbare]
      simp [isSymbol_symbol]
    show ofOpcodes ops = .error fault ↔ _
    rw [ofOpcodes_eq_error_iff, hnone, hbare, List.length_map]
    simp

/-- Once there are symbols only, the two readers agree. -/
theorem parse_eq_ofCommands {text : String} (h : ∀ c ∈ bare text, IsSymbol c) :
    parse text = ofCommands (String.ofList (bare text)) := by
  rw [ofCommands, String.length_ofList, String.toList_ofList]
  split
  · rename_i hlength
    refine parse_eq_error_iff.2 (.length h ?_)
    rcases hlength with hnil | hmod
    · exact .inl (List.length_eq_zero_iff.1 hnil)
    · exact .inr fun hdvd => hmod (Nat.mod_eq_zero_of_dvd hdvd)
  · rw [parse, squeeze_eq_bare]

theorem bare_append (s t : String) : bare (s ++ t) = bare s ++ bare t := by
  simp [bare]

/-- Blanks between two parts of a text are not seen. -/
theorem bare_insert {before after blank : String} (h : ∀ c ∈ blank.toList, IsBlank c) :
    bare (before ++ blank ++ after) = bare (before ++ after) := by
  have hnone : bare blank = [] := by
    rw [bare, List.filter_eq_nil_iff]
    intro c hc
    simpa using h c hc
  simp [bare_append, hnone]

theorem parse_congr {text text' : String} (h : bare text = bare text') : parse text = parse text' := by
  rw [parse, parse, squeeze_eq_bare, squeeze_eq_bare, h]

theorem exists_parse_iff {text : String} : (∃ p, parse text = .ok p) ↔ WellFormed (bare text) := by
  constructor
  · rintro ⟨p, hp⟩
    have hbare := parse_eq_ok_iff_bare.1 hp
    have hlength : (bare text).length = 5 * p.chunkCount := by
      rw [hbare, List.length_map, length_opcodes]
    have hpos := p.chunkCount_pos
    refine ⟨?_, ?_, ⟨p.chunkCount, hlength⟩⟩
    · rw [← List.length_pos_iff]
      omega
    · rw [hbare]
      intro c hc
      obtain ⟨op, -, rfl⟩ := List.mem_map.1 hc
      exact isSymbol_symbol op
  · rintro ⟨hne, hsymbols, hwhole⟩
    cases hp : parse text with
    | ok p => exact ⟨p, rfl⟩
    | error fault =>
      cases parse_eq_error_iff.1 hp with
      | @foreign before after c htext hbefore hblank hsymbol =>
        refine absurd (hsymbols c ?_) hsymbol
        simp [bare, htext, hblank]
      | length _ hlength =>
        rcases hlength with hnil | hpart
        · exact absurd hnil hne
        · exact absurd hwhole hpart

end Program

/-- Bytes that have the numbers of the characters of a text are read as this text. -/
theorem Files.textOfBytes_eq {bytes : Bytes} {text : String}
    (h : text.toList.map Char.toNat = bytes.map UInt8.toNat) : textOfBytes bytes = text := by
  have hchars : bytes.map (fun b => Char.ofNat b.toNat) = text.toList := by
    have hmap : bytes.map (fun b => Char.ofNat b.toNat) = (bytes.map UInt8.toNat).map Char.ofNat := by
      rw [List.map_map]
      rfl
    rw [hmap, ← h, List.map_map]
    simp [Function.comp_def]
  rw [textOfBytes, hchars, String.ofList_toList]

namespace Program

/-- **The texts that are programs.** A text is accepted just if its characters that are not blank are
symbols, at least one, and as many as fill whole chunks; and it is read as the program that consists of
these symbols. Otherwise it is refused: for the first character that is neither blank nor a symbol, whatever
the length, and else for the length. A reader of bare symbols agrees once there are symbols only. So blanks
can be put in or left out anywhere, and the program in a file is what is read from the text that has the
bytes of the file for its characters. -/
theorem parse_iff_wellFormed (text : String) :
    ((∃ p, parse text = .ok p) ↔ WellFormed (bare text)) ∧
    (∀ p, parse text = .ok p ↔ p.Spells (bare text)) ∧
    (∀ fault, parse text = .error fault ↔ Refused text fault) ∧
    (∀ c, (LoadFault.unknownSymbol c).message = "Unknown character " ++ c.toString ++ " encountered!") ∧
    LoadFault.badLength.message = "Inadequate code length!" ∧
    ((∀ c ∈ bare text, IsSymbol c) → parse text = ofCommands (String.ofList (bare text))) ∧
    (∀ before blank after : String, text = before ++ after → (∀ c ∈ blank.toList, IsBlank c) →
      parse (before ++ blank ++ after) = parse text) ∧
    (∀ (files : Files) (path : Path) (bytes : Bytes), files.read path = .ok bytes →
      text.toList.map Char.toNat = bytes.map UInt8.toNat → files.loadProgram path = parse text) := by
  refine ⟨exists_parse_iff, fun p => parse_eq_ok_iff_spells, fun fault => parse_eq_error_iff, fun _ => rfl,
    rfl, parse_eq_ofCommands, ?_, ?_⟩
  · rintro before blank after rfl hblank
    exact parse_congr (bare_insert hblank)
  · intro files path bytes hread htext
    simp only [Files.loadProgram, hread, Files.textOfBytes_eq htext]

/-- Two chunks in a text with blanks of every kind. -/
def laidOut : String := "55 55B\n\t123\x0d\nAB \x0b\x0c"

/-- It is read as these two chunks, with more blanks in it and from a file as well; with a foreign letter in
front of it that letter is named. -/
theorem parse_iff_wellFormed_laid_out :
    let files := Files.ofList [] [("p", some laidOut.toUTF8.toList)]
    (∃ p, parse laidOut = .ok p ∧ p.commands = "5555B123AB" ∧ p.chunkCount = 2) ∧
    parse ("5" ++ "\x0c\x0b" ++ "5 55B\n\t123\x0d\nAB \x0b\x0c") = parse laidOut ∧
    files.loadProgram (Path.ofString "p") = parse laidOut ∧
    parse (" é" ++ laidOut) = .error (.unknownSymbol 'é') := by
  intro files
  obtain ⟨haccepts, hspells, -, -, -, -, hblanks, hfiles⟩ := parse_iff_wellFormed laidOut
  obtain ⟨-, -, hrefused, -⟩ := parse_iff_wellFormed (" é" ++ laidOut)
  have hbare : bare laidOut = "5555B123AB".toList := by decide +kernel
  obtain ⟨p, hp⟩ := haccepts.2 ⟨by rw [hbare]; decide, by rw [hbare]; simp [IsSymbol], by rw [hbare]; decide⟩
  have hread := (hspells p).1 hp
  refine ⟨⟨p, hp, ?_, ?_⟩, ?_, ?_, ?_⟩
  · rw [hread.commands, hbare, String.ofList_toList]
  · rw [hread.chunkCount, hbare]
    decide
  · exact hblanks "5" _ _ (by decide +kernel) (by simp [IsBlank])
  · exact hfiles files _ laidOut.toUTF8.toList rfl (by decide +kernel)
  · have htext : (" é" ++ laidOut).toList = [' '] ++ 'é' :: laidOut.toList := by simp
    exact (hrefused _).2 (.foreign htext (by simp [IsBlank]) (by decide) (by decide))

end Program

end ChunkMachine
