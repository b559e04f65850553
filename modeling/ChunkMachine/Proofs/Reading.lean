import ChunkMachine.Document

/-!
# Reading documents

The debugger writes JSON documents and reads none. What it writes is to be JSON that a tool can read, and
that is said with a reader: `read` takes a whole text and gives the document that it stands for. It allows
blanks wherever JSON allows them, all escapes and both letter cases of their digits. It knows integers only,
since no document holds another number.

The reader has fuel, which it spends on every item, field and character; the length of the text is enough
(`read`). Each part of the reader is shown to read back what its counterpart writes, whatever text follows,
and the documents follow by induction on their structure.

## What is proved

* `Written.readChar`: a character is read back from every form in which it can be written.
* `readNat_toDigits`: a number is read back if no digit follows it.
* `read_render`: every document is read back.
-/

namespace ChunkMachine.Document

/-! ### Blanks and numbers -/

/-- May the character stand between the parts of a document? -/
def isBlank (c : Char) : Bool := c == ' ' || c == '\n' || c == '\t' || c == '\x0d'

/-- The text without its first blanks. -/
def skipBlanks (text : List Char) : List Char := text.dropWhile isBlank

/-- A number at the start of a text, and the rest. A number has no leading zeros. -/
def readNat (text : List Char) : Option (Nat × List Char) :=
  let digits := text.takeWhile Char.isDigit
  let n := Nat.ofDigitChars 10 digits 0
  if digits = Nat.toDigits 10 n then some (n, text.dropWhile Char.isDigit) else none

/-! ### Strings -/

/-- The value of a digit in base sixteen. -/
def hexValue (c : Char) : Option Nat :=
  if '0' ≤ c ∧ c ≤ '9' then some (c.toNat - '0'.toNat)
  else if 'a' ≤ c ∧ c ≤ 'f' then some (c.toNat - 'a'.toNat + 10)
  else if 'A' ≤ c ∧ c ≤ 'F' then some (c.toNat - 'A'.toNat + 10)
  else none

/-- The value of some digits in base sixteen after those of `n`, and the rest. -/
def readHex : (count n : Nat) → List Char → Option (Nat × List Char)
  | 0, n, rest => some (n, rest)
  | _ + 1, _, [] => none
  | count + 1, n, c :: rest => (hexValue c).bind fun value => readHex count (16 * n + value) rest

/-- The letters of the short escapes. -/
def shortEscapes : List (Char × Char) :=
  [('"', '"'), ('\\', '\\'), ('/', '/'), ('n', '\n'), ('r', '\x0d'), ('t', '\t'), ('b', '\x08'),
    ('f', '\x0c')]

/-- The character of one or two escaped units, after the first `\u`. -/
def readUnits (text : List Char) : Option (Char × List Char) :=
  match readHex 4 0 text with
  | none => none
  | some (unit, rest) =>
    if 0xD800 ≤ unit ∧ unit < 0xDC00 then
      match rest with
      | '\\' :: 'u' :: rest =>
        match readHex 4 0 rest with
        | none => none
        | some (low, rest) =>
          if 0xDC00 ≤ low ∧ low < 0xE000 then
            some (Char.ofNat (0x10000 + (unit - 0xD800) * 0x400 + (low - 0xDC00)), rest)
          else none
      | _ => none
    else if 0xDC00 ≤ unit ∧ unit < 0xE000 then none
    else some (Char.ofNat unit, rest)

/-- A character of a string, and the rest. -/
def readChar : List Char → Option (Char × List Char)
  | '\\' :: 'u' :: rest => readUnits rest
  | '\\' :: c :: rest => (shortEscapes.lookup c).map fun plain => (plain, rest)
  | c :: rest => if c = '\\' ∨ c.toNat < 0x20 then none else some (c, rest)
  | [] => none

/-- The characters up to the closing quote, and the rest after it. -/
def readString : (fuel : Nat) → List Char → Option (List Char × List Char)
  | 0, _ => none
  | _ + 1, [] => none
  | fuel + 1, c :: rest =>
    if c = '"' then some ([], rest)
    else
      (readChar (c :: rest)).bind fun (c, rest) =>
        (readString fuel rest).map fun (string, rest) => (c :: string, rest)

/-! ### Documents -/

/-- A word that stands for a document, and the rest. -/
def readWord : List Char → Option (Document × List Char)
  | 'n' :: 'u' :: 'l' :: 'l' :: rest => some (.null, rest)
  | 't' :: 'r' :: 'u' :: 'e' :: rest => some (.bool true, rest)
  | 'f' :: 'a' :: 'l' :: 's' :: 'e' :: rest => some (.bool false, rest)
  | _ => none

mutual

/-- A document at the start of a text, and the rest. -/
def readValue : (fuel : Nat) → List Char → Option (Document × List Char)
  | 0, _ => none
  | fuel + 1, input =>
    match skipBlanks input with
    | [] => none
    | c :: rest =>
      if c.isDigit then (readNat (c :: rest)).map fun (n, rest) => (.int n, rest)
      else if c = '-' then (readNat rest).map fun (n, rest) => (.int (-n), rest)
      else if c = '"' then
        (readString fuel rest).map fun (string, rest) => (.text (String.ofList string), rest)
      else if c = '[' then
        match skipBlanks rest with
        | ']' :: rest => some (.list [], rest)
        | rest => (readItems fuel rest).map fun (items, rest) => (.list items, rest)
      else if c = '\x7b' then
        match skipBlanks rest with
        | '\x7d' :: rest => some (.record [], rest)
        | rest => (readFields fuel rest).map fun (fields, rest) => (.record fields, rest)
      else readWord (c :: rest)

/-- One or more items up to the closing bracket, and the rest after it. -/
def readItems : (fuel : Nat) → List Char → Option (List Document × List Char)
  | 0, _ => none
  | fuel + 1, input =>
    (readValue fuel input).bind fun (item, rest) =>
      match skipBlanks rest with
      | ']' :: rest => some ([item], rest)
      | ',' :: rest => (readItems fuel rest).map fun (items, rest) => (item :: items, rest)
      | _ => none

/-- One or more fields up to the closing brace, and the rest after it. -/
def readFields : (fuel : Nat) → List Char → Option (List (String × Document) × List Char)
  | 0, _ => none
  | fuel + 1, input =>
    match skipBlanks input with
    | '"' :: rest =>
      (readString fuel rest).bind fun (name, rest) =>
        match skipBlanks rest with
        | ':' :: rest =>
          (readValue fuel rest).bind fun (value, rest) =>
            match skipBlanks rest with
            | '\x7d' :: rest => some ([(String.ofList name, value)], rest)
            | ',' :: rest =>
              (readFields fuel rest).map fun (fields, rest) =>
                ((String.ofList name, value) :: fields, rest)
            | _ => none
        | _ => none
    | _ => none

end

/-- The document that a text stands for, if it stands for one. -/
def read (text : String) : Option Document :=
  match readValue (text.length + 1) text.toList with
  | some (document, rest) => if skipBlanks rest = [] then some document else none
  | none => none

/-! ### Numbers are read back -/

/-- The text does not begin with a digit. -/
def NoDigit (rest : List Char) : Prop := ∀ c, rest.head? = some c → c.isDigit = false

theorem takeWhile_digits {digits rest : List Char} (hdigits : ∀ c ∈ digits, c.isDigit = true)
    (hrest : NoDigit rest) : (digits ++ rest).takeWhile Char.isDigit = digits := by
  rw [List.takeWhile_append_of_pos hdigits]
  cases rest with
  | nil => simp
  | cons c rest => rw [List.takeWhile_cons_of_neg (by simp [hrest c rfl]), List.append_nil]

theorem dropWhile_digits {digits rest : List Char} (hdigits : ∀ c ∈ digits, c.isDigit = true)
    (hrest : NoDigit rest) : (digits ++ rest).dropWhile Char.isDigit = rest := by
  rw [List.dropWhile_append_of_pos hdigits]
  cases rest with
  | nil => rfl
  | cons c rest => rw [List.dropWhile_cons_of_neg (by simp [hrest c rfl])]

/-- A number is read back if no digit follows it. -/
theorem readNat_toDigits (n : Nat) {rest : List Char} (hrest : NoDigit rest) :
    readNat (Nat.toDigits 10 n ++ rest) = some (n, rest) := by
  have hdigits : ∀ c ∈ Nat.toDigits 10 n, c.isDigit = true := fun c hc =>
    Nat.isDigit_of_mem_toDigits (by decide) (by decide) hc
  simp only [readNat, takeWhile_digits hdigits hrest, dropWhile_digits hdigits hrest,
    Nat.ofDigitChars_ten_toDigits, if_true]

/-! ### Strings are read back -/

theorem hexValue_digitChar : ∀ n < 16, hexValue n.digitChar = some n := by decide

/-- The last digit comes after those of the number without it. -/
theorem toList_smallHex_succ (width n : Nat) (hwidth : 0 < width) :
    (Text.smallHex (width + 1) n).toList =
      (Text.smallHex width (n / 16)).toList ++ [(n % 16).digitChar] := by
  by_cases hn : n < 16
  · have hzero : n / 16 = 0 := by omega
    have hmod : n % 16 = n := by omega
    obtain ⟨width, rfl⟩ := Nat.exists_eq_succ_of_ne_zero (Nat.pos_iff_ne_zero.1 hwidth)
    have hone : "0".length = 1 := rfl
    simp [Text.smallHex, Text.padLeft, hzero, hmod, Nat.toDigits_of_lt_base hn, List.replicate_succ',
      hone]
  · rw [Text.smallHex, Text.smallHex, Nat.toDigits_of_base_le (by decide) (by omega)]
    simp [Text.padLeft]

/-- A 16-bit unit is written with four digits. -/
theorem toList_smallHex {n : Nat} (h : n < 0x10000) :
    (Text.smallHex 4 n).toList =
      [(n / 16 / 16 / 16).digitChar, (n / 16 / 16 % 16).digitChar, (n / 16 % 16).digitChar,
        (n % 16).digitChar] := by
  have hlast : n / 16 / 16 / 16 < 16 := by omega
  rw [toList_smallHex_succ 3 n (by decide), toList_smallHex_succ 2 _ (by decide),
    toList_smallHex_succ 1 _ (by decide)]
  simp [Text.smallHex, Text.padLeft, Nat.toDigits_of_lt_base hlast]

/-- The unit is read back from its digits. -/
theorem readHex_smallHex {n : Nat} (h : n < 0x10000) (rest : List Char) :
    readHex 4 0 ((Text.smallHex 4 n).toList ++ rest) = some (n, rest) := by
  have hfirst := hexValue_digitChar (n / 16 / 16 / 16) (by omega)
  have hsecond := hexValue_digitChar (n / 16 / 16 % 16) (by omega)
  have hthird := hexValue_digitChar (n / 16 % 16) (by omega)
  have hlast := hexValue_digitChar (n % 16) (by omega)
  have hn : 16 * (16 * (16 * (16 * 0 + n / 16 / 16 / 16) + n / 16 / 16 % 16) + n / 16 % 16) + n % 16 =
      n := by omega
  simp only [toList_smallHex h, List.cons_append, List.nil_append, readHex, hfirst, hsecond, hthird,
    hlast, Option.bind_some, hn]

/-- No character is half of a pair, and two units are enough for each. -/
theorem toNat_cases (c : Char) :
    c.toNat < 0xD800 ∨ 0xE000 ≤ c.toNat ∧ c.toNat < 0x110000 := by
  have hvalid := c.valid
  simp only [UInt32.isValidChar, Nat.isValidChar] at hvalid
  have hnat : c.toNat = c.val.toNat := rfl
  omega

/-- A character of one unit is read back from its escape. -/
theorem readUnits_single (c : Char) (h : c.toNat < 0x10000) (rest : List Char) :
    readUnits ((Text.smallHex 4 c.toNat).toList ++ rest) = some (c, rest) := by
  have hcases := toNat_cases c
  rw [readUnits, readHex_smallHex h]
  simp only
  rw [if_neg (by omega), if_neg (by omega), Char.ofNat_toNat]

/-- A character of two units is read back from its escapes. -/
theorem readUnits_pair {high low : Nat} (hhigh : 0xD800 ≤ high ∧ high < 0xDC00)
    (hlow : 0xDC00 ≤ low ∧ low < 0xE000) (rest : List Char) :
    readUnits ((Text.smallHex 4 high).toList ++
      '\\' :: 'u' :: ((Text.smallHex 4 low).toList ++ rest)) =
        some (Char.ofNat (0x10000 + (high - 0xD800) * 0x400 + (low - 0xDC00)), rest) := by
  rw [readUnits, readHex_smallHex (by omega)]
  simp only
  rw [if_pos hhigh, readHex_smallHex (by omega)]
  simp only
  rw [if_pos hlow]

/-- The forms in which a character is written: as a short escape, as itself, and as the escape of one
unit or of two. -/
inductive Written (c : Char) : List Char → Prop where
  | short {letter : Char} (hletter : letter ≠ 'u') (hlookup : shortEscapes.lookup letter = some c) :
    Written c ['\\', letter]
  | plain (hslash : c ≠ '\\') (hquote : c ≠ '"') (hcode : 0x20 ≤ c.toNat) : Written c [c]
  | single (hcode : c.toNat < 0x10000) :
    Written c ('\\' :: 'u' :: (Text.smallHex 4 c.toNat).toList)
  | pair {high low : Nat} (hhigh : 0xD800 ≤ high ∧ high < 0xDC00) (hlow : 0xDC00 ≤ low ∧ low < 0xE000)
    (hcode : 0x10000 + (high - 0xD800) * 0x400 + (low - 0xDC00) = c.toNat) :
    Written c ('\\' :: 'u' :: ((Text.smallHex 4 high).toList ++
      '\\' :: 'u' :: (Text.smallHex 4 low).toList))

theorem toList_unitEscape (n : Nat) :
    (unitEscape n).toList = '\\' :: 'u' :: (Text.smallHex 4 n).toList := by
  simp [unitEscape]

theorem charText_written (c : Char) : Written c (charText c).toList := by
  unfold charText
  iterate 7
    split
    · rename_i hc
      rw [eq_of_beq hc]
      exact .short (by decide) (by decide)
  rename_i hquote hslash _ _ _ _ _
  split
  · rename_i hc
    rw [Char.toString_eq_singleton, String.toList_singleton]
    exact .plain (by simpa using hslash) (by simpa using hquote) hc.1
  · split
    · rename_i hunit
      rw [toList_unitEscape]
      exact .single hunit
    · rename_i hunit
      have hcases := toNat_cases c
      rw [String.toList_append, toList_unitEscape, toList_unitEscape, List.cons_append, List.cons_append]
      exact .pair (by omega) (by omega) (by omega)

theorem readChar_unit (rest : List Char) : readChar ('\\' :: 'u' :: rest) = readUnits rest := by
  rw [readChar]

theorem readChar_escape {letter : Char} (h : letter ≠ 'u') (rest : List Char) :
    readChar ('\\' :: letter :: rest) =
      (shortEscapes.lookup letter).map fun plain => (plain, rest) := by
  rw [readChar]
  exact h

/-- A character is read back in whatever form it is written. -/
theorem Written.readChar {c : Char} {form : List Char} (h : Written c form) (rest : List Char) :
    readChar (form ++ rest) = some (c, rest) := by
  cases h with
  | short hletter hlookup =>
    simp only [List.cons_append, List.nil_append, readChar_escape hletter, hlookup, Option.map_some]
  | plain hslash hquote hcode =>
    simp only [List.cons_append, List.nil_append]
    rw [Document.readChar]
    · rw [if_neg (by simp only [hslash, false_or]; omega)]
    all_goals
      intros
      simp_all
  | single hcode =>
    rw [List.cons_append, List.cons_append, readChar_unit, readUnits_single c hcode]
  | pair hhigh hlow hcode =>
    rw [List.cons_append, List.cons_append, List.append_assoc, readChar_unit]
    simp only [List.cons_append]
    rw [readUnits_pair hhigh hlow, hcode, Char.ofNat_toNat]

/-- No form of a character begins with a quote. -/
theorem Written.head {c : Char} {form : List Char} (h : Written c form) :
    ∃ first others, form = first :: others ∧ first ≠ '"' := by
  cases h with
  | plain hslash hquote hcode => exact ⟨_, _, rfl, hquote⟩
  | short | single | pair => exact ⟨_, _, rfl, by decide⟩

/-- The characters of a string as they are written between the quotes. -/
def escapedChars (string : List Char) : List Char := string.flatMap fun c => (charText c).toList

theorem toList_stringText (s : String) :
    (stringText s).toList = '"' :: (escapedChars s.toList ++ ['"']) := by
  simp [stringText, escapedChars, List.flatMap_map]

theorem escapedChars_cons (c : Char) (string : List Char) :
    escapedChars (c :: string) = (charText c).toList ++ escapedChars string :=
  List.flatMap_cons

theorem length_le_escapedChars (string : List Char) : string.length ≤ (escapedChars string).length := by
  induction string with
  | nil => exact Nat.zero_le _
  | cons c rest ih =>
    obtain ⟨first, others, hform, -⟩ := (charText_written c).head
    simp only [escapedChars_cons, hform, List.length_append, List.length_cons]
    omega

/-- A string is read back, with fuel for each of its characters. -/
theorem readString_escapedChars (string rest : List Char) : ∀ fuel, string.length < fuel →
    readString fuel (escapedChars string ++ '"' :: rest) = some (string, rest) := by
  induction string with
  | nil =>
    intro fuel hfuel
    obtain ⟨fuel, rfl⟩ := Nat.exists_eq_add_one_of_ne_zero (Nat.ne_zero_of_lt hfuel)
    rfl
  | cons c string ih =>
    intro fuel hfuel
    obtain ⟨fuel, rfl⟩ := Nat.exists_eq_add_one_of_ne_zero (Nat.ne_zero_of_lt hfuel)
    have hwritten := charText_written c
    obtain ⟨first, others, hform, hquote⟩ := hwritten.head
    have hchar := hwritten.readChar (escapedChars string ++ '"' :: rest)
    rw [hform, List.cons_append] at hchar
    rw [escapedChars_cons, List.append_assoc, hform, List.cons_append, readString, if_neg hquote, hchar,
      Option.bind_some]
    simp only [ih fuel (by simpa using hfuel), Option.map_some]

/-! ### Documents are read back -/

theorem noDigit_cons {c : Char} (h : c.isDigit = false) (rest : List Char) : NoDigit (c :: rest) := by
  intro c' hc'
  rw [← Option.some.inj hc', h]

theorem skipBlanks_of_not_blank {c : Char} (h : isBlank c = false) (rest : List Char) :
    skipBlanks (c :: rest) = c :: rest :=
  List.dropWhile_cons_of_neg (by simp [h])

/-- The start of a line is blank. -/
theorem skipBlanks_lineStart (depth : Nat) (rest : List Char) :
    skipBlanks ((lineStart depth).toList ++ rest) = skipBlanks rest := by
  have hblank : ∀ c ∈ (lineStart depth).toList, isBlank c = true := by
    intro c hc
    simp only [lineStart, String.toList_append, String.toList_ofList, List.mem_append] at hc
    rcases hc with hc | hc
    · rw [List.mem_singleton.1 hc]
      rfl
    · rw [List.eq_of_mem_replicate hc]
      rfl
  exact List.dropWhile_append_of_pos hblank

theorem readValue_lineStart (depth fuel : Nat) (rest : List Char) :
    readValue fuel ((lineStart depth).toList ++ rest) = readValue fuel rest := by
  cases fuel with
  | zero => rfl
  | succ fuel => rw [readValue, readValue, skipBlanks_lineStart]

theorem readItems_lineStart (depth fuel : Nat) (rest : List Char) :
    readItems fuel ((lineStart depth).toList ++ rest) = readItems fuel rest := by
  cases fuel with
  | zero => rfl
  | succ fuel => rw [readItems, readItems, readValue_lineStart]

theorem readFields_lineStart (depth fuel : Nat) (rest : List Char) :
    readFields fuel ((lineStart depth).toList ++ rest) = readFields fuel rest := by
  cases fuel with
  | zero => rfl
  | succ fuel => rw [readFields, readFields, skipBlanks_lineStart]

theorem lineStart_head (depth : Nat) : ∃ blanks, (lineStart depth).toList = '\n' :: blanks :=
  ⟨List.replicate (2 * depth) ' ', by simp [lineStart]⟩

/-- A digit is neither blank nor a bracket. -/
theorem not_blank_of_digit {c : Char} (h : c.isDigit = true) : isBlank c = false ∧ c ≠ ']' := by
  refine ⟨?_, by rintro rfl; exact absurd h (by decide)⟩
  rw [Bool.eq_false_iff]
  intro hblank
  simp only [isBlank, Bool.or_eq_true, beq_iff_eq] at hblank
  rcases hblank with ((rfl | rfl) | rfl) | rfl <;> exact absurd h (by decide)

/-- The text of an integer: its digits, after a sign if it is negative. -/
theorem toList_toString (i : Int) :
    (toString i).toList = Nat.toDigits 10 i.natAbs ∧ i = i.natAbs ∨
      (toString i).toList = '-' :: Nat.toDigits 10 i.natAbs ∧ i = -i.natAbs := by
  cases i with
  | ofNat n => exact .inl ⟨Nat.toList_repr, rfl⟩
  | negSucc n =>
    refine .inr ⟨?_, rfl⟩
    have hrepr : toString (Int.negSucc n) = "-" ++ Nat.repr (n + 1) := rfl
    rw [hrepr, String.toList_append, Nat.toList_repr]
    rfl

/-- Every document begins with a character that is neither blank nor a closing bracket. -/
theorem renderAt_head (depth : Nat) (d : Document) :
    ∃ c rest, (renderAt depth d).toList = c :: rest ∧ isBlank c = false ∧ c ≠ ']' := by
  cases d with
  | null =>
    rw [renderAt]
    exact ⟨'n', _, rfl, by decide, by decide⟩
  | bool b =>
    rw [renderAt]
    cases b
    · exact ⟨'f', _, rfl, by decide, by decide⟩
    · exact ⟨'t', _, rfl, by decide, by decide⟩
  | int i =>
    rw [renderAt]
    rcases toList_toString i with ⟨htext, -⟩ | ⟨htext, -⟩
    · obtain ⟨c, rest, hdigits⟩ :=
        List.exists_cons_of_ne_nil (Nat.toDigits_ne_nil (n := i.natAbs) (b := 10))
      have hdigit : c.isDigit = true :=
        Nat.isDigit_of_mem_toDigits (by decide) (by decide) (hdigits ▸ List.mem_cons_self)
      exact ⟨c, rest, htext.trans hdigits, not_blank_of_digit hdigit⟩
    · exact ⟨'-', _, htext, by decide, by decide⟩
  | text s =>
    rw [renderAt, toList_stringText]
    exact ⟨'"', _, rfl, by decide, by decide⟩
  | list items =>
    cases items <;> simp only [renderAt, String.toList_append, List.append_assoc] <;>
      exact ⟨'[', _, rfl, by decide, by decide⟩
  | record fields =>
    cases fields <;> simp only [renderAt, String.toList_append, List.append_assoc] <;>
      exact ⟨'\x7b', _, rfl, by decide, by decide⟩

/-- What follows an item: more items, and the closing bracket on a line of its own. -/
def itemsTail (depth depth' : Nat) (items : List Document) (rest : List Char) : List Char :=
  (renderItems depth items).toList ++ ((lineStart depth').toList ++ ']' :: rest)

/-- What follows a field: more fields, and the closing brace on a line of its own. -/
def fieldsTail (depth depth' : Nat) (fields : List (String × Document)) (rest : List Char) : List Char :=
  (renderFields depth fields).toList ++ ((lineStart depth').toList ++ '\x7d' :: rest)

theorem itemsTail_nil (depth depth' : Nat) (rest : List Char) :
    skipBlanks (itemsTail depth depth' [] rest) = ']' :: rest := by
  rw [itemsTail, renderItems]
  exact (skipBlanks_lineStart depth' _).trans (skipBlanks_of_not_blank (by decide) rest)

theorem itemsTail_cons (depth depth' : Nat) (d : Document) (items : List Document) (rest : List Char) :
    itemsTail depth depth' (d :: items) rest =
      ',' :: ((lineStart depth).toList ++ ((renderAt depth d).toList ++
        itemsTail depth depth' items rest)) := by
  simp [itemsTail, renderItems]

theorem fieldsTail_nil (depth depth' : Nat) (rest : List Char) :
    skipBlanks (fieldsTail depth depth' [] rest) = '\x7d' :: rest := by
  rw [fieldsTail, renderFields]
  exact (skipBlanks_lineStart depth' _).trans (skipBlanks_of_not_blank (by decide) rest)

theorem fieldsTail_cons (depth depth' : Nat) (name : String) (d : Document)
    (fields : List (String × Document)) (rest : List Char) :
    fieldsTail depth depth' ((name, d) :: fields) rest =
      ',' :: ((lineStart depth).toList ++ ((stringText name).toList ++
        ':' :: ' ' :: ((renderAt depth d).toList ++ fieldsTail depth depth' fields rest))) := by
  simp [fieldsTail, renderFields]

theorem noDigit_itemsTail (depth depth' : Nat) (items : List Document) (rest : List Char) :
    NoDigit (itemsTail depth depth' items rest) := by
  cases items with
  | nil =>
    obtain ⟨blanks, hblanks⟩ := lineStart_head depth'
    rw [itemsTail, renderItems, hblanks]
    exact noDigit_cons (by decide) _
  | cons d items =>
    rw [itemsTail_cons]
    exact noDigit_cons (by decide) _

theorem noDigit_fieldsTail (depth depth' : Nat) (fields : List (String × Document)) (rest : List Char) :
    NoDigit (fieldsTail depth depth' fields rest) := by
  cases fields with
  | nil =>
    obtain ⟨blanks, hblanks⟩ := lineStart_head depth'
    rw [fieldsTail, renderFields, hblanks]
    exact noDigit_cons (by decide) _
  | cons field fields =>
    rw [fieldsTail_cons]
    exact noDigit_cons (by decide) _

theorem readValue_int (fuel : Nat) (i : Int) {rest : List Char} (hrest : NoDigit rest) :
    readValue (fuel + 1) ((toString i).toList ++ rest) = some (.int i, rest) := by
  rcases toList_toString i with ⟨htext, hi⟩ | ⟨htext, hi⟩
  · obtain ⟨c, others, hdigits⟩ :=
      List.exists_cons_of_ne_nil (Nat.toDigits_ne_nil (n := i.natAbs) (b := 10))
    have hdigit : c.isDigit = true :=
      Nat.isDigit_of_mem_toDigits (by decide) (by decide) (hdigits ▸ List.mem_cons_self)
    have hread := readNat_toDigits i.natAbs hrest
    rw [htext]
    rw [hdigits, List.cons_append] at hread ⊢
    rw [readValue, skipBlanks_of_not_blank (not_blank_of_digit hdigit).1]
    simp only [hdigit, if_true, hread, Option.map_some, ← hi]
  · rw [htext, List.cons_append, readValue, skipBlanks_of_not_blank (by decide)]
    simp only [readNat_toDigits i.natAbs hrest, Option.map_some, ← hi]
    rfl

theorem readValue_text (fuel : Nat) (s : String) (rest : List Char)
    (hfuel : (stringText s).length ≤ fuel) :
    readValue (fuel + 1) ((stringText s).toList ++ rest) = some (.text s, rest) := by
  have hlength := length_le_escapedChars s.toList
  rw [← String.length_toList, toList_stringText] at hfuel
  simp only [List.length_cons, List.length_append, List.length_nil] at hfuel
  have hread := readString_escapedChars s.toList rest fuel (by omega)
  rw [toList_stringText, List.cons_append, List.append_assoc, readValue,
    skipBlanks_of_not_blank (by decide)]
  simp only [List.cons_append, List.nil_append, hread, Option.map_some, String.ofList_toList]
  rfl

/-- An opening bracket that is followed by an item begins a list. -/
theorem readValue_bracket (fuel : Nat) {c : Char} {rest others : List Char}
    (hskip : skipBlanks rest = c :: others) (hc : c ≠ ']') :
    readValue (fuel + 1) ('[' :: rest) =
      (readItems fuel (c :: others)).map fun (items, rest) => (.list items, rest) := by
  have hvalue : readValue (fuel + 1) ('[' :: rest) =
      match skipBlanks rest with
      | ']' :: rest => some (.list [], rest)
      | rest => (readItems fuel rest).map fun (items, rest) => (.list items, rest) := by
    rw [readValue]
    rfl
  rw [hvalue, hskip]
  split
  · rename_i heq
    exact absurd (List.cons.inj heq).1 hc
  · rfl

/-- An opening brace that is followed by a name begins a record. -/
theorem readValue_brace (fuel : Nat) {rest others : List Char}
    (hskip : skipBlanks rest = '"' :: others) :
    readValue (fuel + 1) ('\x7b' :: rest) =
      (readFields fuel ('"' :: others)).map fun (fields, rest) => (.record fields, rest) := by
  have hvalue : readValue (fuel + 1) ('\x7b' :: rest) =
      match skipBlanks rest with
      | '\x7d' :: rest => some (.record [], rest)
      | rest => (readFields fuel rest).map fun (fields, rest) => (.record fields, rest) := by
    rw [readValue]
    rfl
  rw [hvalue, hskip]
  rfl

/-- The document is read back from its text at any depth, if no digit follows it. -/
def ReadBack (d : Document) : Prop :=
  ∀ (depth fuel : Nat) (rest : List Char), (renderAt depth d).length < fuel → NoDigit rest →
    readValue fuel ((renderAt depth d).toList ++ rest) = some (d, rest)

/-- Items that are read back one by one are read back together. -/
theorem readItems_of_readBack (depth depth' : Nat) (items : List Document) (rest : List Char) :
    ∀ (d : Document) (fuel : Nat), ReadBack d → (∀ x ∈ items, ReadBack x) →
      (renderAt depth d).length + (renderItems depth items).length + 1 < fuel →
      readItems fuel ((renderAt depth d).toList ++ itemsTail depth depth' items rest) =
        some (d :: items, rest) := by
  induction items with
  | nil =>
    intro d fuel hd _ hfuel
    obtain ⟨fuel, rfl⟩ := Nat.exists_eq_add_one_of_ne_zero (Nat.ne_zero_of_lt hfuel)
    rw [readItems, hd depth fuel _ (by omega) (noDigit_itemsTail _ _ _ _), Option.bind_some]
    simp only [itemsTail_nil]
  | cons d' items ih =>
    intro d fuel hd hitems hfuel
    obtain ⟨fuel, rfl⟩ := Nat.exists_eq_add_one_of_ne_zero (Nat.ne_zero_of_lt hfuel)
    obtain ⟨hd', hitems⟩ := List.forall_mem_cons.1 hitems
    have hrest : (renderAt depth d').length + (renderItems depth items).length + 1 < fuel := by
      simp only [renderItems, String.length_append] at hfuel
      have hcomma : ",".length = 1 := rfl
      omega
    have hskip : skipBlanks (itemsTail depth depth' (d' :: items) rest) =
        ',' :: ((lineStart depth).toList ++ ((renderAt depth d').toList ++
          itemsTail depth depth' items rest)) := by
      rw [itemsTail_cons, skipBlanks_of_not_blank (by decide)]
    rw [readItems, hd depth fuel _ (by omega) (noDigit_itemsTail _ _ _ _), Option.bind_some]
    simp only [hskip]
    rw [readItems_lineStart, ih d' fuel hd' hitems hrest, Option.map_some]

/-- A name, the colon after it and a value are read back, up to what follows. -/
theorem readFields_field {depth fuel : Nat} {name : String} {d : Document} {rest : List Char}
    (hd : ReadBack d) (hname : (stringText name).length < fuel) (hvalue : (renderAt depth d).length < fuel)
    (hrest : NoDigit rest) :
    readFields (fuel + 1)
        ((stringText name).toList ++ ':' :: ' ' :: ((renderAt depth d).toList ++ rest)) =
      match skipBlanks rest with
      | '\x7d' :: rest => some ([(name, d)], rest)
      | ',' :: rest => (readFields fuel rest).map fun (fields, rest) => ((name, d) :: fields, rest)
      | _ => none := by
  have hlength := length_le_escapedChars name.toList
  rw [← String.length_toList, toList_stringText] at hname
  simp only [List.length_cons, List.length_append, List.length_nil] at hname
  have hblank (rest : List Char) : readValue fuel (' ' :: rest) = readValue fuel rest := by
    cases fuel with
    | zero => rfl
    | succ fuel => rw [readValue, readValue]; rfl
  have hstring := readString_escapedChars name.toList
    (':' :: ' ' :: ((renderAt depth d).toList ++ rest)) fuel (by omega)
  rw [toList_stringText, List.cons_append, List.append_assoc, List.cons_append, List.nil_append,
    readFields, skipBlanks_of_not_blank (by decide)]
  simp only [hstring, Option.bind_some, skipBlanks_of_not_blank (show isBlank ':' = false by decide),
    hblank, hd depth fuel rest hvalue hrest, String.ofList_toList]

/-- Fields that are read back one by one are read back together. -/
theorem readFields_of_readBack (depth depth' : Nat) (fields : List (String × Document))
    (rest : List Char) : ∀ (name : String) (d : Document) (fuel : Nat), ReadBack d →
      (∀ field ∈ fields, ReadBack field.2) →
      (stringText name).length + (renderAt depth d).length + (renderFields depth fields).length + 1 <
        fuel →
      readFields fuel ((stringText name).toList ++
          ':' :: ' ' :: ((renderAt depth d).toList ++ fieldsTail depth depth' fields rest)) =
        some ((name, d) :: fields, rest) := by
  induction fields with
  | nil =>
    intro name d fuel hd _ hfuel
    obtain ⟨fuel, rfl⟩ := Nat.exists_eq_add_one_of_ne_zero (Nat.ne_zero_of_lt hfuel)
    rw [readFields_field hd (by omega) (by omega) (noDigit_fieldsTail _ _ _ _)]
    simp only [fieldsTail_nil]
  | cons field fields ih =>
    intro name d fuel hd hfields hfuel
    obtain ⟨fuel, rfl⟩ := Nat.exists_eq_add_one_of_ne_zero (Nat.ne_zero_of_lt hfuel)
    obtain ⟨name', d'⟩ := field
    obtain ⟨hd', hfields⟩ := List.forall_mem_cons.1 hfields
    have hrest : (stringText name').length + (renderAt depth d').length +
        (renderFields depth fields).length + 1 < fuel := by
      simp only [renderFields, String.length_append] at hfuel
      have hcomma : ",".length = 1 := rfl
      omega
    rw [readFields_field hd (by omega) (by omega) (noDigit_fieldsTail _ _ _ _)]
    simp only [fieldsTail_cons, skipBlanks_of_not_blank (show isBlank ',' = false by decide)]
    rw [readFields_lineStart, ih name' d' fuel hd' hfields hrest, Option.map_some]

theorem readBack_list {items : List Document} (h : ∀ d ∈ items, ReadBack d) :
    ReadBack (.list items) := by
  intro depth fuel rest hfuel _
  obtain ⟨fuel, rfl⟩ := Nat.exists_eq_add_one_of_ne_zero (Nat.ne_zero_of_lt hfuel)
  cases items with
  | nil =>
    rw [renderAt]
    rfl
  | cons d items =>
    obtain ⟨hd, hitems⟩ := List.forall_mem_cons.1 h
    have htext : (renderAt depth (.list (d :: items))).toList ++ rest =
        '[' :: ((lineStart (depth + 1)).toList ++
          ((renderAt (depth + 1) d).toList ++ itemsTail (depth + 1) depth items rest)) := by
      simp [renderAt, itemsTail]
    have hlength : (renderAt (depth + 1) d).length + (renderItems (depth + 1) items).length + 1 < fuel := by
      simp only [renderAt, String.length_append] at hfuel
      have hopen : "[".length = 1 := rfl
      have hclose : "]".length = 1 := rfl
      omega
    have hread := readItems_of_readBack (depth + 1) depth items rest d fuel hd hitems hlength
    obtain ⟨c, others, hhead, hblank, hbracket⟩ := renderAt_head (depth + 1) d
    rw [hhead, List.cons_append] at hread htext
    rw [htext, readValue_bracket fuel ((skipBlanks_lineStart _ _).trans
      (skipBlanks_of_not_blank hblank _)) hbracket, hread]
    rfl

theorem readBack_record {fields : List (String × Document)} (h : ∀ field ∈ fields, ReadBack field.2) :
    ReadBack (.record fields) := by
  intro depth fuel rest hfuel _
  obtain ⟨fuel, rfl⟩ := Nat.exists_eq_add_one_of_ne_zero (Nat.ne_zero_of_lt hfuel)
  cases fields with
  | nil =>
    rw [renderAt]
    rfl
  | cons field fields =>
    obtain ⟨name, d⟩ := field
    obtain ⟨hd, hfields⟩ := List.forall_mem_cons.1 h
    have htext : (renderAt depth (.record ((name, d) :: fields))).toList ++ rest =
        '\x7b' :: ((lineStart (depth + 1)).toList ++ ((stringText name).toList ++
          ':' :: ' ' :: ((renderAt (depth + 1) d).toList ++
            fieldsTail (depth + 1) depth fields rest))) := by
      simp [renderAt, fieldsTail]
    have hlength : (stringText name).length + (renderAt (depth + 1) d).length +
        (renderFields (depth + 1) fields).length + 1 < fuel := by
      simp only [renderAt, String.length_append] at hfuel
      have hopen : "\x7b".length = 1 := rfl
      have hclose : "\x7d".length = 1 := rfl
      omega
    have hread := readFields_of_readBack (depth + 1) depth fields rest name d fuel hd hfields hlength
    rw [toList_stringText, List.cons_append] at hread htext
    rw [htext, readValue_brace fuel ((skipBlanks_lineStart _ _).trans
      (skipBlanks_of_not_blank (by decide) _)), hread]
    rfl

mutual

/-- Every document is read back: by induction on its structure. -/
theorem readBack : ∀ d : Document, ReadBack d
  | .null | .bool true | .bool false => by
    intro depth fuel rest hfuel _
    obtain ⟨fuel, rfl⟩ := Nat.exists_eq_add_one_of_ne_zero (Nat.ne_zero_of_lt hfuel)
    rw [renderAt]
    rfl
  | .int i => by
    intro depth fuel rest hfuel hrest
    obtain ⟨fuel, rfl⟩ := Nat.exists_eq_add_one_of_ne_zero (Nat.ne_zero_of_lt hfuel)
    rw [renderAt]
    exact readValue_int fuel i hrest
  | .text s => by
    intro depth fuel rest hfuel _
    obtain ⟨fuel, rfl⟩ := Nat.exists_eq_add_one_of_ne_zero (Nat.ne_zero_of_lt hfuel)
    rw [renderAt] at hfuel ⊢
    exact readValue_text fuel s rest (Nat.le_of_lt_succ hfuel)
  | .list items => readBack_list (readBack_items items)
  | .record fields => readBack_record (readBack_fields fields)

theorem readBack_items : ∀ (items : List Document), ∀ d ∈ items, ReadBack d
  | [] => List.forall_mem_nil _
  | d :: rest => List.forall_mem_cons.2 ⟨readBack d, readBack_items rest⟩

theorem readBack_fields : ∀ (fields : List (String × Document)), ∀ field ∈ fields, ReadBack field.2
  | [] => List.forall_mem_nil _
  | (_, d) :: rest => List.forall_mem_cons.2 ⟨readBack d, readBack_fields rest⟩

end

/-- **Every document is read back from its text.** -/
theorem read_render (d : Document) : read d.render = some d := by
  have hrest : NoDigit [] := by simp [NoDigit]
  have hvalue := readBack d 0 (d.render.length + 1) [] (Nat.lt_succ_self _) hrest
  rw [List.append_nil] at hvalue
  unfold read
  rw [show d.render.toList = (renderAt 0 d).toList from rfl, hvalue]
  rfl

end ChunkMachine.Document
