import ChunkMachine.Text.Space
import ChunkMachine.Text.Words
import Mathlib.Algebra.GroupWithZero.Nat
import Mathlib.Data.List.Basic
import Mathlib.Tactic.SplitIfs

/-!
# The splitter from character to character

The splitter goes through a line and gives its words when it reaches the end. Where a line is made of two
texts, one wants to know where it stands between them. So here it is seen as a machine: `Scan` holds the
words that are complete, the mode, and the characters of the word that is being read, and `advance` takes
one more character. What is left of the splitter is `finish`, at the end of the line.

Two facts about the machine carry most of what is said about words elsewhere. A character that means nothing
to it is added to the word that is being read, except that between double quotes a backslash may come with
it (`run_verbatim`). And no character gives more than one character of a word (`weight_advance_le`), so
characters that give as many as they are stand for themselves (`run_of_full_weight`).

## What is proved

* `splitWords_eq_finish`: the machine gives the words of a line.
* `steady_scan`: in which states it can be.
* `run_verbatim`, `run_inQuotes`: what it does with characters that mean nothing to it.
* `weight_run_le`, `run_of_full_weight`: how much it can read.
* `exists_mem_of_finish`: what was read is in one of the words.
-/

namespace ChunkMachine.Text

/-- Where the splitter stands: the words that are complete, its mode, and the characters of the word that is
being read, last first. -/
structure Scan where
  words : List String := []
  mode : WordMode := .between
  token : List Char := []

namespace Scan

/-- The word that is being read is complete. -/
def closeWord (x : Scan) (mode : WordMode) : Scan :=
  ⟨x.words ++ [String.ofList x.token.reverse], mode, []⟩

/-- A character is added to the word that is being read. -/
def push (x : Scan) (mode : WordMode) (c : Char) : Scan := ⟨x.words, mode, c :: x.token⟩

/-- Go on in another mode. -/
def turn (x : Scan) (mode : WordMode) : Scan := ⟨x.words, mode, x.token⟩

/-- Take one character. -/
def advance (comments : Bool) (x : Scan) (c : Char) : Scan :=
  match x.mode with
  | .between =>
    if isSeparator c then ⟨x.words, .between, []⟩
    else if comments && c == '#' then ⟨x.words, .comment, []⟩
    else if c == '\\' then x.turn .escape
    else if isQuote c then x.turn (.quote c)
    else ⟨x.words, .word, [c]⟩
  | .word =>
    if isSeparator c then x.closeWord .between
    else if comments && c == '#' then x.closeWord .comment
    else if isQuote c then x.turn (.quote c)
    else if c == '\\' then x.turn .escape
    else x.push .word c
  | .quote mark =>
    if c == mark then x.turn .word
    else if c == '\\' && mark == '"' then x.turn .quoteEscape
    else x.push (.quote mark) c
  | .escape => x.push .word c
  | .quoteEscape =>
    if c == '\\' || c == '"' then x.push (.quote '"') c
    else (x.push (.quote '"') '\\').push (.quote '"') c
  | .comment => ⟨x.words, if c == '\n' then .between else .comment, []⟩

/-- Take some characters. -/
def run (comments : Bool) (x : Scan) (cs : List Char) : Scan := cs.foldl (advance comments) x

/-- The words at the end of the line. -/
def finish (x : Scan) : Except WordFault (List String) :=
  match x.mode with
  | .between | .comment => .ok x.words
  | .word => .ok (x.words ++ [String.ofList x.token.reverse])
  | .quote _ => .error .noClosingQuote
  | .escape | .quoteEscape => .error .noEscapedCharacter

theorem run_append (comments : Bool) (x : Scan) (cs ds : List Char) :
    x.run comments (cs ++ ds) = (x.run comments cs).run comments ds := List.foldl_append

theorem run_cons (comments : Bool) (x : Scan) (c : Char) (cs : List Char) :
    x.run comments (c :: cs) = (x.advance comments c).run comments cs := rfl

theorem run_concat (comments : Bool) (x : Scan) (cs : List Char) (c : Char) :
    x.run comments (cs ++ [c]) = (x.run comments cs).advance comments c := run_append ..

/-- The splitter does with a character what the machine does. -/
theorem splitFrom_advance (comments : Bool) (x : Scan) (c : Char) (cs : List Char) :
    (splitFrom comments x.mode x.token (c :: cs)).map (x.words ++ ·) =
      (splitFrom comments (x.advance comments c).mode (x.advance comments c).token cs).map
        ((x.advance comments c).words ++ ·) := by
  obtain ⟨words, mode, token⟩ := x
  cases mode with
  | between =>
    simp only [splitFrom, advance, turn]
    split_ifs <;> rfl
  | word =>
    have hclose (mode : WordMode) :
        ((splitFrom comments mode [] cs).map (String.ofList token.reverse :: ·)).map (words ++ ·) =
          (splitFrom comments mode [] cs).map ((words ++ [String.ofList token.reverse]) ++ ·) := by
      cases splitFrom comments mode [] cs <;> simp [Except.map]
    simp only [splitFrom, advance, turn, push, closeWord]
    split_ifs
    · exact hclose .between
    · exact hclose .comment
    · rfl
    · rfl
    · rfl
  | quote mark =>
    simp only [splitFrom, advance, turn, push]
    split_ifs <;> rfl
  | escape => rfl
  | quoteEscape =>
    simp only [splitFrom, advance, push]
    split_ifs <;> rfl
  | comment =>
    simp only [splitFrom, advance]
    split_ifs <;> rfl

theorem splitFrom_eq_finish (comments : Bool) (cs : List Char) : ∀ x : Scan,
    (splitFrom comments x.mode x.token cs).map (x.words ++ ·) = (x.run comments cs).finish := by
  induction cs with
  | nil =>
    rintro ⟨words, mode, token⟩
    cases mode <;> simp [splitFrom, run, finish, Except.map]
  | cons c cs ih =>
    intro x
    rw [splitFrom_advance, ih, run_cons]

end Scan

/-- Where the splitter stands after some characters of a line. -/
def scan (comments : Bool) (cs : List Char) : Scan := Scan.run comments {} cs

/-- **The machine gives the words of a line.** -/
theorem splitWords_eq_finish (comments : Bool) (line : String) :
    splitWords comments line = (scan comments line.toList).finish := by
  have hsplit := Scan.splitFrom_eq_finish comments line.toList {}
  rw [scan, ← hsplit, splitWords]
  cases splitFrom comments .between [] line.toList <;> simp [Except.map]

namespace Scan

/-! ### States -/

/-- The machine is between quotes. -/
def InQuotes (x : Scan) : Prop := (∃ mark, x.mode = .quote mark) ∨ x.mode = .quoteEscape

instance (x : Scan) : Decidable x.InQuotes :=
  match h : x.mode with
  | .quote mark => .isTrue (.inl ⟨mark, h⟩)
  | .quoteEscape => .isTrue (.inr h)
  | .between | .word | .escape | .comment => .isFalse (by simp [InQuotes, h])

theorem finish_of_inQuotes {x : Scan} (h : x.InQuotes) : ∃ fault, x.finish = .error fault := by
  rcases h with ⟨mark, hmode⟩ | hmode <;> simp [finish, hmode]

/-- What holds of the machine wherever it comes to stand, if there are no comments. -/
structure Steady (x : Scan) : Prop where
  between : x.mode = .between → x.token = []
  no_comment : x.mode ≠ .comment
  quote : ∀ mark, x.mode = .quote mark → isQuote mark = true

theorem steady_advance {x : Scan} (h : x.Steady) (c : Char) : (x.advance false c).Steady := by
  obtain ⟨words, mode, token⟩ := x
  cases mode with
  | between =>
    have htoken : token = [] := h.between rfl
    simp only [advance, turn, Bool.false_and, Bool.false_eq_true, if_false]
    split_ifs with hseparator hescape hquote
    · exact ⟨fun _ => rfl, by simp, by simp⟩
    · exact ⟨by simp, by simp, by simp⟩
    · exact ⟨by simp, by simp, by simpa using hquote⟩
    · exact ⟨by simp, by simp, by simp⟩
  | word =>
    simp only [advance, turn, push, closeWord, Bool.false_and, Bool.false_eq_true, if_false]
    split_ifs with hseparator hquote hescape
    · exact ⟨fun _ => rfl, by simp, by simp⟩
    · exact ⟨by simp, by simp, by simpa using hquote⟩
    · exact ⟨by simp, by simp, by simp⟩
    · exact ⟨by simp, by simp, by simp⟩
  | quote mark =>
    have hmark : isQuote mark = true := h.quote mark rfl
    simp only [advance, turn, push]
    split_ifs
    · exact ⟨by simp, by simp, by simp⟩
    · exact ⟨by simp, by simp, by simp⟩
    · exact ⟨by simp, by simp, by simpa using hmark⟩
  | escape => exact ⟨by simp [advance, push], by simp [advance, push], by simp [advance, push]⟩
  | quoteEscape =>
    simp only [advance, push]
    split_ifs
    · exact ⟨by simp, by simp, by simp [isQuote]⟩
    · exact ⟨by simp, by simp, by simp [isQuote]⟩
  | comment => exact absurd rfl h.no_comment

theorem steady_run {x : Scan} (h : x.Steady) (cs : List Char) : (x.run false cs).Steady := by
  induction cs generalizing x with
  | nil => exact h
  | cons c cs ih => exact ih (steady_advance h c)

end Scan

theorem steady_scan (cs : List Char) : (scan false cs).Steady :=
  Scan.steady_run ⟨fun _ => rfl, by simp, by simp⟩ cs

/-! ### Characters that stand for themselves -/

theorem isSpace_of_isSeparator {c : Char} (h : isSeparator c = true) : isSpace c = true := by
  simp only [isSeparator, Bool.or_eq_true, beq_iff_eq] at h
  rcases h with ((rfl | rfl) | rfl) | rfl <;> decide

/-- White space does not begin quotes or protect a character. -/
theorem not_quote_of_isSpace {c : Char} (h : isSpace c = true) : isQuote c = false ∧ c ≠ '\\' := by
  constructor
  · rw [Bool.eq_false_iff]
    intro hquote
    simp only [isQuote, Bool.or_eq_true, beq_iff_eq] at hquote
    rcases hquote with rfl | rfl <;> cases h
  · rintro rfl
    cases h

/-- The character means nothing to the splitter, and it is no white space. -/
def isVerbatim (c : Char) : Bool := !(isSpace c || isQuote c || c == '\\')

theorem isVerbatim_iff {c : Char} :
    isVerbatim c = true ↔ isSpace c = false ∧ isQuote c = false ∧ c ≠ '\\' := by
  simp [isVerbatim, and_assoc]

theorem not_isSeparator_of_isVerbatim {c : Char} (h : isVerbatim c = true) : isSeparator c = false := by
  rw [Bool.eq_false_iff]
  intro hseparator
  have hspace := isSpace_of_isSeparator hseparator
  rw [(isVerbatim_iff.1 h).1] at hspace
  cases hspace

namespace Scan

/-- Outside of quotes a character that means nothing is added to the word that is being read. -/
theorem advance_verbatim {x : Scan} (hx : x.Steady) (hout : ¬ x.InQuotes) {c : Char}
    (hc : isVerbatim c = true) : x.advance false c = x.push .word c := by
  obtain ⟨-, hquote, hescape⟩ := isVerbatim_iff.1 hc
  have hseparator := not_isSeparator_of_isVerbatim hc
  obtain ⟨words, mode, token⟩ := x
  cases mode with
  | between =>
    obtain rfl : token = [] := hx.between rfl
    simp [advance, push, hseparator, hquote, hescape]
  | word => simp [advance, push, hseparator, hquote, hescape]
  | escape => rfl
  | quote mark => exact absurd (.inl ⟨mark, rfl⟩) hout
  | quoteEscape => exact absurd (.inr rfl) hout
  | comment => exact absurd rfl hx.no_comment

/-- Between quotes only a quote ends them. -/
theorem advance_inQuotes {x : Scan} (hx : x.Steady) (hin : x.InQuotes) {c : Char}
    (hc : isQuote c = false) : (x.advance false c).InQuotes := by
  obtain ⟨words, mode, token⟩ := x
  rcases hin with ⟨mark, rfl⟩ | rfl
  · have hmark : c ≠ mark := by
      rintro rfl
      rw [hx.quote c rfl] at hc
      cases hc
    simp only [advance, turn, push, beq_iff_eq, if_neg hmark]
    split_ifs
    · exact .inr rfl
    · exact .inl ⟨mark, rfl⟩
  · simp only [advance, push]
    split_ifs
    · exact .inl ⟨'"', rfl⟩
    · exact .inl ⟨'"', rfl⟩

/-- **Outside of quotes characters that mean nothing are added to the word that is being read.** -/
theorem run_verbatim {x : Scan} (hx : x.Steady) (hout : ¬ x.InQuotes) {cs : List Char}
    (hcs : ∀ c ∈ cs, isVerbatim c = true) (hne : cs ≠ []) :
    x.run false cs = ⟨x.words, .word, cs.reverse ++ x.token⟩ := by
  induction cs generalizing x with
  | nil => exact absurd rfl hne
  | cons c cs ih =>
    have hstep := advance_verbatim hx hout (hcs c List.mem_cons_self)
    rw [run_cons, hstep]
    cases cs with
    | nil => rfl
    | cons d ds =>
      have hsteady : (x.push .word c).Steady := hstep ▸ steady_advance hx c
      rw [ih hsteady (by simp [InQuotes, push]) (fun e he => hcs e (List.mem_cons_of_mem _ he)) (by simp)]
      simp [push]

/-- **Between quotes only a quote ends them.** -/
theorem run_inQuotes {x : Scan} (hx : x.Steady) (hin : x.InQuotes) {cs : List Char}
    (hcs : ∀ c ∈ cs, isQuote c = false) : (x.run false cs).InQuotes := by
  induction cs generalizing x with
  | nil => exact hin
  | cons c cs ih =>
    exact ih (steady_advance hx c) (advance_inQuotes hx hin (hcs c List.mem_cons_self))
      fun d hd => hcs d (List.mem_cons_of_mem _ hd)

/-- White space outside of quotes opens none. It ends the word if it separates words and is not protected,
and otherwise it is added to the word. -/
theorem advance_space {x : Scan} (hx : x.Steady) (hout : ¬ x.InQuotes) {c : Char}
    (hc : isSpace c = true) :
    if isSeparator c = true ∧ x.mode ≠ .escape then (x.advance false c).mode = .between
    else (x.advance false c).mode = .word ∧ (x.advance false c).token ≠ [] := by
  obtain ⟨hquote, hescape⟩ := not_quote_of_isSpace hc
  obtain ⟨words, mode, token⟩ := x
  cases mode with
  | between | word =>
    by_cases hseparator : isSeparator c = true
    · simp [advance, closeWord, hseparator]
    · simp [advance, push, hseparator, hquote, hescape]
  | escape => simp [advance, push]
  | quote mark => exact absurd (.inl ⟨mark, rfl⟩) hout
  | quoteEscape => exact absurd (.inr rfl) hout
  | comment => exact absurd rfl hx.no_comment

/-- White space that ends the characters leaves no quote open and protects nothing. -/
theorem exists_finish_of_spaces {x : Scan} (hx : x.Steady) (hout : ¬ x.InQuotes) {cs : List Char}
    (hcs : ∀ c ∈ cs, isSpace c = true) (hne : cs ≠ []) :
    ∃ words, (x.run false cs).finish = .ok words := by
  induction cs generalizing x with
  | nil => exact absurd rfl hne
  | cons c cs ih =>
    have hspace := advance_space hx hout (hcs c List.mem_cons_self)
    have hmode : (x.advance false c).mode = .between ∨ (x.advance false c).mode = .word := by
      split at hspace
      · exact .inl hspace
      · exact .inr hspace.1
    cases cs with
    | nil =>
      simp only [run_cons]
      rcases hmode with hmode | hmode <;> exact ⟨_, by simp only [run, List.foldl_nil, finish, hmode]; rfl⟩
    | cons d ds =>
      have hout' : ¬ (x.advance false c).InQuotes := by
        rcases hmode with hmode | hmode <;> simp [InQuotes, hmode]
      exact ih (steady_advance hx c) hout' (fun e he => hcs e (List.mem_cons_of_mem _ he)) (by simp)

/-- Only what separates words takes the machine between words. -/
theorem isSeparator_of_between {x : Scan} (hx : x.Steady) {c : Char}
    (h : (x.advance false c).mode = .between) : isSeparator c = true := by
  obtain ⟨words, mode, token⟩ := x
  revert h
  cases mode with
  | between | word | quote | quoteEscape =>
    simp only [advance, turn, push, closeWord]
    split_ifs <;> simp_all
  | escape => simp [advance, push]
  | comment => exact absurd rfl hx.no_comment

/-! ### How much is read -/

/-- The number of characters that were read. A backslash between double quotes counts while it is not clear
what it does. -/
def weight (x : Scan) : Nat :=
  (x.words.map String.length).sum + x.token.length + if x.mode = .quoteEscape then 1 else 0

theorem weight_advance_le (x : Scan) (c : Char) : (x.advance false c).weight ≤ x.weight + 1 := by
  obtain ⟨words, mode, token⟩ := x
  cases mode with
  | between | word | quote | quoteEscape | comment =>
    simp only [advance, turn, push, closeWord]
    split_ifs <;> simp [weight] <;> omega
  | escape => simp [advance, push, weight, Nat.add_assoc]

theorem weight_run_le (x : Scan) (cs : List Char) : (x.run false cs).weight ≤ x.weight + cs.length := by
  induction cs generalizing x with
  | nil => exact Nat.le_refl _
  | cons c cs ih =>
    have hrest := ih (x.advance false c)
    have hfirst := weight_advance_le x c
    rw [run_cons, List.length_cons]
    omega

/-- A character that is not lost outside of quotes stands for itself. -/
theorem advance_of_weight {x : Scan} (hx : x.Steady) (hout : ¬ x.InQuotes) {c : Char}
    (h : x.weight + 1 ≤ (x.advance false c).weight) : x.advance false c = x.push .word c := by
  obtain ⟨words, mode, token⟩ := x
  cases mode with
  | between =>
    obtain rfl : token = [] := hx.between rfl
    revert h
    simp only [advance, turn, push]
    split_ifs <;> simp [weight]
  | word =>
    revert h
    simp only [advance, turn, push, closeWord]
    split_ifs <;> simp [weight]
  | escape => rfl
  | quote mark => exact absurd (.inl ⟨mark, rfl⟩) hout
  | quoteEscape => exact absurd (.inr rfl) hout
  | comment => exact absurd rfl hx.no_comment

/-- **Characters of which none is lost outside of quotes stand for themselves.** -/
theorem run_of_full_weight {x : Scan} (hx : x.Steady) (hout : ¬ x.InQuotes) {cs : List Char}
    (h : x.weight + cs.length ≤ (x.run false cs).weight) (hne : cs ≠ []) :
    x.run false cs = ⟨x.words, .word, cs.reverse ++ x.token⟩ := by
  induction cs generalizing x with
  | nil => exact absurd rfl hne
  | cons c cs ih =>
    have hrest := weight_run_le (x.advance false c) cs
    have hfirst := weight_advance_le x c
    rw [run_cons, List.length_cons] at h
    have hstep := advance_of_weight hx hout (c := c) (by omega)
    rw [run_cons, hstep]
    cases cs with
    | nil => rfl
    | cons d ds =>
      have hsteady : (x.push .word c).Steady := hstep ▸ steady_advance hx c
      rw [ih hsteady (by simp [InQuotes, push]) (by rw [hstep] at h hfirst; omega) (by simp)]
      simp [push]

/-- No character of a word is left out of the count. -/
theorem sum_length_le_weight {x : Scan} (hx : x.Steady) {words : List String}
    (h : x.finish = .ok words) : (words.map String.length).sum ≤ x.weight := by
  obtain ⟨before, mode, token⟩ := x
  cases mode <;> cases h
  · simp [weight]
  · simp [weight]
  · exact absurd rfl hx.no_comment

/-! ### Where a character goes -/

/-- The character was read: it is in a word, or in the one that is being read. -/
def Holds (x : Scan) (c : Char) : Prop := (∃ word ∈ x.words, c ∈ word.toList) ∨ c ∈ x.token

theorem holds_advance {x : Scan} (hx : x.Steady) {c : Char} (h : x.Holds c) (d : Char) :
    (x.advance false d).Holds c := by
  obtain ⟨words, mode, token⟩ := x
  cases mode with
  | between =>
    obtain rfl : token = [] := hx.between rfl
    obtain ⟨word, hword, hc⟩ : ∃ word ∈ words, c ∈ word.toList := h.resolve_right (by simp)
    refine .inl ⟨word, ?_, hc⟩
    simp only [advance, turn, Bool.false_and, Bool.false_eq_true, if_false]
    split_ifs <;> exact hword
  | word =>
    simp only [advance, turn, push, closeWord, Bool.false_and, Bool.false_eq_true, if_false]
    split_ifs
    · rcases h with ⟨word, hword, hc⟩ | hc
      · exact .inl ⟨word, List.mem_append_left _ hword, hc⟩
      · exact .inl ⟨String.ofList token.reverse, by simp, by simpa using hc⟩
    · exact h
    · exact h
    · exact h.imp_right (List.mem_cons_of_mem d)
  | quote mark =>
    simp only [advance, turn, push]
    split_ifs
    · exact h
    · exact h
    · exact h.imp_right (List.mem_cons_of_mem d)
  | escape => exact h.imp_right (List.mem_cons_of_mem d)
  | quoteEscape =>
    simp only [advance, push]
    split_ifs
    · exact h.imp_right (List.mem_cons_of_mem d)
    · exact h.imp_right fun hc => List.mem_cons_of_mem d (List.mem_cons_of_mem '\\' hc)
  | comment => exact absurd rfl hx.no_comment

/-- **What was read is in one of the words.** -/
theorem exists_mem_of_finish {x : Scan} (hx : x.Steady) {c : Char} (h : x.Holds c) {cs : List Char}
    {words : List String} (hwords : (x.run false cs).finish = .ok words) :
    ∃ word ∈ words, c ∈ word.toList := by
  induction cs generalizing x with
  | cons d cs ih => exact ih (steady_advance hx d) (holds_advance hx h d) hwords
  | nil =>
    obtain ⟨before, mode, token⟩ := x
    cases mode with
    | between =>
      obtain rfl : token = [] := hx.between rfl
      cases hwords
      exact h.resolve_right (by simp)
    | word =>
      cases hwords
      rcases h with ⟨word, hword, hc⟩ | hc
      · exact ⟨word, List.mem_append_left _ hword, hc⟩
      · exact ⟨String.ofList token.reverse, List.mem_append_right _ List.mem_cons_self,
          by simpa using hc⟩
    | quote | escape | quoteEscape => cases hwords
    | comment => exact absurd rfl hx.no_comment

/-- White space between quotes is read. -/
theorem holds_of_inQuotes {x : Scan} {c : Char} (hc : isSpace c = true)
    (hin : (x.advance false c).InQuotes) : (x.advance false c).Holds c := by
  obtain ⟨hquote, hescape⟩ := not_quote_of_isSpace hc
  obtain ⟨words, mode, token⟩ := x
  revert hin
  cases mode with
  | between | word =>
    simp only [advance, turn, push, closeWord, hquote, Bool.false_eq_true, if_false]
    split_ifs <;> simp [InQuotes]
  | quote mark =>
    simp only [advance, turn, push]
    split_ifs with hmark hprotects
    · simp [InQuotes]
    · exact absurd (beq_iff_eq.1 (Bool.and_eq_true_iff.1 hprotects).1) hescape
    · simp [Holds]
  | quoteEscape =>
    simp only [advance, push]
    split_ifs <;> simp [Holds]
  | escape => simp [advance, push, InQuotes]
  | comment =>
    simp only [advance]
    split_ifs <;> simp [InQuotes]

end Scan

end ChunkMachine.Text
