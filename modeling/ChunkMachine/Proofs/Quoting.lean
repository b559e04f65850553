import ChunkMachine.Debugger.Dispatch
import Mathlib.Data.List.Basic

/-!
# Quoted words are split into themselves

The debugger writes command lines itself: it puts a command and a quoted word together, and the line then
takes the way of any other line. It is stripped of white space and split into words. Whatever the word
is, these must be the two words that the line was made of.

Quotes are needed where a word has characters that mean something to the splitter. A word without such
characters is left as it is, and so it must be shown that the splitter takes each of them as it stands
and that none of them is white space. They are few, so this is checked one by one.

## What is proved

* `splitFrom_plain`, `splitFrom_enclosed`: what the splitter makes of a word, with and without quotes.
* `splitFrom_quoteWord`: splitting a quoted word gives it back.
* `splitWords_quoteWord`: a line of a command and a quoted word is split into these two words.
* `commandWords_plain_quoteWord`: so has one with a plain word between them, which has three.
-/

namespace ChunkMachine.Text

/-! ### Plain characters -/

/-- What holds of each of the first 128 characters. -/
theorem ascii_forall {P : Char → Prop} (h : ∀ n < 128, P (Char.ofNat n)) {c : Char}
    (hc : c.toNat < 128) : P c := by
  have hP := h c.toNat hc
  rwa [Char.ofNat_toNat] at hP

theorem isPlain_lt {c : Char} (h : isPlain c = true) : c.toNat < 128 := by
  rcases Bool.or_eq_true_iff.1 h with h | h
  · have hZ : 'Z'.val.toNat = 90 := rfl
    have hz : 'z'.val.toNat = 122 := rfl
    have h9 : '9'.val.toNat = 57 := rfl
    have hc : c.toNat = c.val.toNat := rfl
    have hranges : (decide ('A'.val ≤ c.val ∧ c.val ≤ 'Z'.val) ||
        (decide ('a'.val ≤ c.val) && decide (c.val ≤ 'z'.val)) ||
        (decide ('0'.val ≤ c.val) && decide (c.val ≤ '9'.val))) = true := h
    simp only [Bool.or_eq_true, Bool.and_eq_true, decide_eq_true_eq, UInt32.le_iff_toNat_le] at hranges
    omega
  · have hall : ("_@%+=:,./-".toList.all fun d => d.toNat < 128) = true := by decide
    exact of_decide_eq_true (List.all_eq_true.1 hall c (List.contains_iff_mem.1 h))

/-- A plain character means nothing to the splitter, and it is no white space. -/
structure Harmless (c : Char) : Prop where
  separator : isSeparator c = false
  comment : (c == '#') = false
  quote : isQuote c = false
  escape : (c == '\\') = false
  space : isSpace c = false

theorem isPlain_harmless {c : Char} (h : isPlain c = true) : Harmless c := by
  have hall : ∀ n < 128, isPlain (Char.ofNat n) = true →
      isSeparator (Char.ofNat n) = false ∧ (Char.ofNat n == '#') = false ∧
        isQuote (Char.ofNat n) = false ∧ (Char.ofNat n == '\\') = false ∧
        isSpace (Char.ofNat n) = false := by decide +kernel
  obtain ⟨hseparator, hcomment, hquote, hescape, hspace⟩ :=
    ascii_forall (P := fun c => isPlain c = true → isSeparator c = false ∧ (c == '#') = false ∧
      isQuote c = false ∧ (c == '\\') = false ∧ isSpace c = false) hall (isPlain_lt h) h
  exact ⟨hseparator, hcomment, hquote, hescape, hspace⟩

/-! ### Splitting -/

/-- The splitter takes plain characters into the word that it reads. -/
theorem splitFrom_plain (comments : Bool) (rest : List Char) {cs : List Char}
    (h : ∀ c ∈ cs, isPlain c = true) : ∀ token : List Char,
      splitFrom comments .word token (cs ++ rest) =
        splitFrom comments .word (cs.reverse ++ token) rest := by
  induction cs with
  | nil => intro token; rfl
  | cons c cs ih =>
    intro token
    have hc := isPlain_harmless (h c List.mem_cons_self)
    rw [List.cons_append, splitFrom]
    simp only [hc.separator, hc.comment, hc.quote, hc.escape, Bool.and_false, Bool.false_eq_true,
      if_false]
    rw [ih (fun d hd => h d (List.mem_cons_of_mem _ hd))]
    simp

/-- The first character of a plain word begins it. -/
theorem splitFrom_plain_cons (comments : Bool) (token rest : List Char) {c : Char}
    (h : isPlain c = true) :
    splitFrom comments .between token (c :: rest) = splitFrom comments .word [c] rest := by
  have hc := isPlain_harmless h
  rw [splitFrom]
  simp only [hc.separator, hc.comment, hc.quote, hc.escape, Bool.and_false, Bool.false_eq_true,
    if_false]

/-- A plain word before a space is a word of the line. -/
theorem splitFrom_plain_word (comments : Bool) (rest : List Char) {w : String} (hw : w ≠ "")
    (h : ∀ c ∈ w.toList, isPlain c = true) :
    splitFrom comments .between [] (w.toList ++ ' ' :: rest) =
      (splitFrom comments .between [] rest).map (w :: ·) := by
  cases hcs : w.toList with
  | nil => exact absurd (String.toList_eq_nil_iff.1 hcs) hw
  | cons c cs =>
    rw [hcs] at h
    have hw' : w = String.ofList (c :: cs) := by rw [← hcs, String.ofList_toList]
    rw [List.cons_append, splitFrom_plain_cons comments [] _ (h c List.mem_cons_self),
      splitFrom_plain comments _ (fun d hd => h d (List.mem_cons_of_mem _ hd))]
    simp [splitFrom, isSeparator, hw']

/-- In single quotes every character stands for itself, a single quote by way of its own quotes. -/
theorem splitFrom_quoteInWord (comments : Bool) (c : Char) (token rest : List Char) :
    splitFrom comments (.quote '\'') token (quoteInWord c ++ rest) =
      splitFrom comments (.quote '\'') (c :: token) rest := by
  unfold quoteInWord
  by_cases hc : (c == '\'') = true
  · rw [if_pos hc, beq_iff_eq.1 hc]
    simp [splitFrom, isSeparator, isQuote]
  · rw [if_neg hc]
    simp only [List.singleton_append, splitFrom, if_neg hc]
    simp

/-- The splitter reads what is enclosed in single quotes. -/
theorem splitFrom_enclosed (comments : Bool) (cs : List Char) : ∀ token : List Char,
    splitFrom comments (.quote '\'') token (cs.flatMap quoteInWord ++ ['\'']) =
      .ok [String.ofList (token.reverse ++ cs)] := by
  induction cs with
  | nil => intro token; simp [splitFrom]
  | cons c cs ih =>
    intro token
    rw [List.flatMap_cons, List.append_assoc, splitFrom_quoteInWord, ih]
    simp

/-- **Splitting a quoted word gives it back.** -/
theorem splitFrom_quoteWord (comments : Bool) (s : String) :
    splitFrom comments .between [] (quoteWord s).toList = .ok [s] := by
  unfold quoteWord
  split
  · rename_i hempty
    rw [String.toList_eq_nil_iff.1 (List.isEmpty_iff.1 hempty)]
    simp [splitFrom, isSeparator, isQuote]
  · rename_i hempty
    split
    · rename_i hplain
      have hall := List.all_eq_true.1 hplain
      cases hcs : s.toList with
      | nil => simp [hcs] at hempty
      | cons c cs =>
        rw [hcs] at hall
        have hrest := splitFrom_plain comments [] (fun d hd => hall d (List.mem_cons_of_mem _ hd)) [c]
        rw [List.append_nil] at hrest
        rw [splitFrom_plain_cons comments [] cs (hall c List.mem_cons_self), hrest, splitFrom]
        simp [← hcs]
    · have henclosed := splitFrom_enclosed comments s.toList []
      simp only [String.toList_append, String.toList_ofList, List.append_assoc]
      simpa [splitFrom, isSeparator, isQuote] using henclosed

/-! ### Stripping -/

theorem dropSpaces_of_head {cs : List Char} (h : ∀ c ∈ cs.head?, isSpace c = false) :
    dropSpaces cs = cs := by
  cases cs with
  | nil => rfl
  | cons c cs => simp [dropSpaces, h c rfl]

/-- A text that neither begins nor ends with white space is not changed by stripping. -/
theorem strip_of_ends {s : String} (hfirst : ∀ c ∈ s.toList.head?, isSpace c = false)
    (hlast : ∀ c ∈ s.toList.getLast?, isSpace c = false) : strip s = s := by
  have hreverse : ∀ c ∈ s.toList.reverse.head?, isSpace c = false := by
    rw [List.head?_reverse]
    exact hlast
  rw [strip, dropSpaces_of_head hfirst, dropSpaces_of_head hreverse, List.reverse_reverse,
    String.ofList_toList]

/-- A quoted word ends with a plain character or with a quote. -/
theorem getLast_quoteWord (s : String) : ∀ c ∈ (quoteWord s).toList.getLast?, isSpace c = false := by
  intro c hc
  unfold quoteWord at hc
  split at hc
  · cases hc
    decide
  · split at hc
    · rename_i hplain
      exact (isPlain_harmless (List.all_eq_true.1 hplain c (List.mem_of_getLast? hc))).space
    · have hlast : "'".toList = ['\''] := rfl
      rw [String.toList_append, hlast, List.getLast?_concat] at hc
      cases hc
      decide

theorem quoteWord_ne_nil (s : String) : (quoteWord s).toList ≠ [] := by
  intro hnil
  have hsplit := splitFrom_quoteWord false s
  rw [hnil] at hsplit
  cases hsplit

end ChunkMachine.Text

namespace ChunkMachine.Debugger

/-- A line that begins with a plain word and ends with a quoted word is not changed by stripping. -/
theorem strip_of_words {line w s : String} (middle : List Char) (hw : w ≠ "")
    (hplain : ∀ c ∈ w.toList, Text.isPlain c = true)
    (hline : line.toList = w.toList ++ (middle ++ (Text.quoteWord s).toList)) :
    Text.strip line = line := by
  apply Text.strip_of_ends
  · intro c hc
    cases hcs : w.toList with
    | nil => exact absurd (String.toList_eq_nil_iff.1 hcs) hw
    | cons first rest =>
      rw [hline, hcs] at hc
      cases hc
      exact (Text.isPlain_harmless (hplain c (hcs ▸ List.mem_cons_self))).space
  · intro c hc
    rw [hline, ← List.append_assoc, List.getLast?_append_of_ne_nil _ (Text.quoteWord_ne_nil s)] at hc
    exact Text.getLast_quoteWord s c hc

/-- **A line of a command and a quoted word is split into these two words**, after it was stripped. -/
theorem splitWords_quoteWord {w : String} (hw : w ≠ "")
    (hplain : ∀ c ∈ w.toList, Text.isPlain c = true) (s : String) :
    Text.splitWords true (Text.strip (w ++ " " ++ Text.quoteWord s)) = .ok [w, s] := by
  have hline : (w ++ " " ++ Text.quoteWord s).toList =
      w.toList ++ ' ' :: (Text.quoteWord s).toList := by simp
  rw [strip_of_words [' '] hw hplain hline, Text.splitWords, hline,
    Text.splitFrom_plain_word true _ hw hplain, Text.splitFrom_quoteWord]
  rfl

theorem commandWords_quoteWord {w : String} (hw : w ≠ "")
    (hplain : ∀ c ∈ w.toList, Text.isPlain c = true) (s : String) :
    commandWords (Text.strip (w ++ " " ++ Text.quoteWord s)) = [w, s] := by
  simp only [commandWords, splitWords_quoteWord hw hplain s]

/-- A line of a command, a plain word and a quoted word has these three words. -/
theorem commandWords_plain_quoteWord {w a : String} (hw : w ≠ "")
    (hplain : ∀ c ∈ w.toList, Text.isPlain c = true) (ha : a ≠ "")
    (haplain : ∀ c ∈ a.toList, Text.isPlain c = true) (s : String) :
    commandWords (Text.strip (w ++ " " ++ a ++ " " ++ Text.quoteWord s)) = [w, a, s] := by
  have hline : (w ++ " " ++ a ++ " " ++ Text.quoteWord s).toList =
      w.toList ++ ' ' :: (a.toList ++ ' ' :: (Text.quoteWord s).toList) := by simp
  have hends : (w ++ " " ++ a ++ " " ++ Text.quoteWord s).toList =
      w.toList ++ (' ' :: a.toList ++ [' '] ++ (Text.quoteWord s).toList) := by simp
  have hstrip := strip_of_words _ hw hplain hends
  rw [hstrip, commandWords, Text.splitWords, hline, Text.splitFrom_plain_word true _ hw hplain,
    Text.splitFrom_plain_word true _ ha haplain, Text.splitFrom_quoteWord]
  rfl

end ChunkMachine.Debugger
