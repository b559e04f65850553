import ChunkMachine.Debugger.Completion
import ChunkMachine.Proofs.Splitting
import Mathlib.Data.List.Induction

/-!
# The words before the cursor

What is completed is the last of the words before the cursor. These are the words of a command line, with an
empty one at the end where white space comes last; but as long as the line has an open quote it has no such
words, and then it is cut at white space. To put a word in at the cursor can close a quote or leave it open,
so one has to know in which of these two ways the text is read afterwards.

## What is proved

* `splitSpaces_append`, `exists_of_splitSpaces`: a text that is cut at white space.
* `wordsBefore_of_ok`, `wordsBefore_of_error`: the two ways to read a text.
* `wordsBefore_verbatim_iff`: when a word that is put behind a text becomes its last word, after given ones.
-/

namespace ChunkMachine

namespace Text

/-! ### Words between white space -/

/-- A word can begin after these characters. -/
def Parted (cs : List Char) : Prop := ∀ c ∈ cs.getLast?, isSpace c = true

theorem parted_nil : Parted [] := by simp [Parted]

theorem parted_concat {cs : List Char} {c : Char} : Parted (cs ++ [c]) ↔ isSpace c = true := by
  simp [Parted]

theorem splitSpaces_space {c : Char} (hc : isSpace c = true) (cs : List Char) :
    ∀ (front word : List Char),
      splitSpaces word (front ++ c :: cs) = splitSpaces word front ++ splitSpaces [] cs := by
  intro front
  induction front with
  | nil =>
    intro word
    cases word <;> simp [splitSpaces, hc]
  | cons d front ih =>
    intro word
    by_cases hd : isSpace d = true
    · cases word <;> simp [splitSpaces, hd, ih]
    · simp [splitSpaces, hd, ih]

/-- What stands after white space is cut on its own. -/
theorem splitSpaces_append {front : List Char} (h : Parted front) (cs : List Char) :
    splitSpaces [] (front ++ cs) = splitSpaces [] front ++ splitSpaces [] cs := by
  rcases List.eq_nil_or_concat' front with rfl | ⟨before, c, rfl⟩
  · rfl
  · have hc : isSpace c = true := parted_concat.1 h
    have hnil : splitSpaces [] [] = [] := rfl
    rw [List.append_assoc, List.singleton_append, splitSpaces_space hc cs, splitSpaces_space hc [],
      hnil, List.append_nil]

theorem splitSpaces_spaces {cs : List Char} (h : ∀ c ∈ cs, isSpace c = true) : splitSpaces [] cs = [] := by
  induction cs with
  | nil => rfl
  | cons c cs ih =>
    have hrest := ih fun d hd => h d (List.mem_cons_of_mem _ hd)
    simp [splitSpaces, h c List.mem_cons_self, hrest]

/-- White space at the end makes no difference. -/
theorem splitSpaces_append_spaces (cs : List Char) {back : List Char} (h : ∀ c ∈ back, isSpace c = true) :
    splitSpaces [] (cs ++ back) = splitSpaces [] cs := by
  cases back with
  | nil => rw [List.append_nil]
  | cons c back =>
    rw [splitSpaces_space (h c List.mem_cons_self),
      splitSpaces_spaces fun d hd => h d (List.mem_cons_of_mem _ hd), List.append_nil]

theorem splitSpaces_unspaced {cs : List Char} (h : ∀ c ∈ cs, isSpace c = false) :
    ∀ word : List Char, word ++ cs ≠ [] →
      splitSpaces word cs = [String.ofList (word.reverse ++ cs)] := by
  induction cs with
  | nil =>
    intro word hne
    cases word with
    | nil => exact absurd rfl hne
    | cons c word => simp [splitSpaces]
  | cons c cs ih =>
    intro word _
    have hrest := ih (fun d hd => h d (List.mem_cons_of_mem _ hd)) (c :: word) (by simp)
    simp [splitSpaces, h c List.mem_cons_self, hrest]

theorem not_space_of_mem_splitSpaces {cs : List Char} :
    ∀ {word : List Char}, (∀ c ∈ word, isSpace c = false) →
      ∀ w ∈ splitSpaces word cs, ∀ c ∈ w.toList, isSpace c = false := by
  induction cs with
  | nil =>
    intro word hword w hw
    cases word with
    | nil => cases hw
    | cons c word =>
      obtain rfl := List.mem_singleton.1 hw
      simpa using fun d hd => hword d (by simpa [or_comm] using hd)
  | cons d cs ih =>
    intro word hword w hw
    rw [splitSpaces] at hw
    split at hw
    · split at hw
      · exact ih (by simp) w hw
      · rcases List.mem_cons.1 hw with rfl | hw
        · simpa using hword
        · exact ih (by simp) w hw
    · rename_i hd
      exact ih (by simpa using ⟨Bool.eq_false_iff.2 hd, hword⟩) w hw

/-- Characters end with a run in which there is no white space. -/
theorem exists_unspaced (cs : List Char) :
    ∃ front run, cs = front ++ run ∧ Parted front ∧ ∀ c ∈ run, isSpace c = false := by
  induction cs using List.reverseRecOn with
  | nil => exact ⟨[], [], rfl, parted_nil, by simp⟩
  | append_singleton cs c ih =>
    by_cases hc : isSpace c = true
    · exact ⟨cs ++ [c], [], (List.append_nil _).symm, parted_concat.2 hc, by simp⟩
    · obtain ⟨front, run, hcs, hfront, hrun⟩ := ih
      refine ⟨front, run ++ [c], by rw [hcs, List.append_assoc], hfront, ?_⟩
      simpa [or_imp, forall_and] using ⟨hrun, Bool.eq_false_iff.2 hc⟩

/-- **The last word has white space around it.** -/
theorem exists_of_splitSpaces (cs : List Char) {words : List String} {word : String}
    (h : splitSpaces [] cs = words ++ [word]) :
    ∃ front back, cs = front ++ word.toList ++ back ∧ Parted front ∧ splitSpaces [] front = words ∧
      word ≠ "" ∧ (∀ c ∈ word.toList, isSpace c = false) ∧ ∀ c ∈ back, isSpace c = true := by
  induction cs using List.reverseRecOn with
  | nil => cases words <;> cases h
  | append_singleton cs c ih =>
    by_cases hc : isSpace c = true
    · rw [splitSpaces_append_spaces cs (by simpa using hc)] at h
      obtain ⟨front, back, hcs, hfront, hwords, hword, hunspaced, hback⟩ := ih h
      refine ⟨front, back ++ [c], by rw [hcs, List.append_assoc], hfront, hwords, hword, hunspaced, ?_⟩
      simpa [or_imp, forall_and] using ⟨hback, hc⟩
    · obtain ⟨front, run, hcs, hfront, hrun⟩ := exists_unspaced (cs ++ [c])
      have hne : run ≠ [] := by
        rintro rfl
        rw [List.append_nil] at hcs
        exact hc (parted_concat.1 (hcs ▸ hfront))
      rw [hcs, splitSpaces_append hfront, splitSpaces_unspaced hrun [] (by simpa using hne)] at h
      obtain ⟨hwords, hword⟩ := List.append_singleton_inj.1 h
      obtain rfl : String.ofList run = word := by simpa using hword
      refine ⟨front, [], by simpa using hcs, hfront, hwords, ?_, by simpa using hrun, by simp⟩
      intro hempty
      exact hne (by simpa using congrArg String.toList hempty)

/-! ### Words that stand for themselves -/

/-- The splitter takes the word as it stands. -/
structure Verbatim (word : String) : Prop where
  ne_empty : word ≠ ""
  chars : ∀ c ∈ word.toList, isVerbatim c = true

theorem Verbatim.toList_ne_nil {word : String} (h : Verbatim word) : word.toList ≠ [] := fun hnil =>
  h.ne_empty (String.toList_eq_nil_iff.1 hnil)

theorem Verbatim.not_space {word : String} (h : Verbatim word) : ∀ c ∈ word.toList, isSpace c = false :=
  fun c hc => (isVerbatim_iff.1 (h.chars c hc)).1

theorem Verbatim.exists_concat {word : String} (h : Verbatim word) :
    ∃ cs c, word.toList = cs ++ [c] ∧ isSpace c = false := by
  rcases List.eq_nil_or_concat' word.toList with hnil | ⟨cs, c, hcs⟩
  · exact absurd hnil h.toList_ne_nil
  · exact ⟨cs, c, hcs, h.not_space c (by rw [hcs]; simp)⟩

end Text

namespace Debugger

open Text

/-! ### The two ways to read a text -/

section Reading

variable {text : String} {front : List Char} {c : Char}

theorem wordsBefore_of_ok {words : List String} (htext : text.toList = front ++ [c])
    (h : splitWords false text = .ok words) :
    wordsBefore text = if isSpace c then words ++ [""] else words := by
  simp [wordsBefore, htext, h]

theorem wordsBefore_of_error {fault : WordFault} (htext : text.toList = front ++ [c])
    (h : splitWords false text = .error fault) :
    wordsBefore text =
      if c = ' ' ∨ c = '\t' then splitSpaces [] text.toList ++ [""] else splitSpaces [] text.toList := by
  simp [wordsBefore, htext, h]

/-- Where the splitter stands after the text, a word can be put in as a new one, after the given words. -/
def ReadyFor (front : List Char) (words : List String) : Prop :=
  if (scan false front).InQuotes then Parted front ∧ splitSpaces [] front = words
  else (scan false front).words = words ∧ (scan false front).token = []

/-- The words of a text with a word at its end that stands for itself. -/
theorem wordsBefore_verbatim {word : String} (hword : Verbatim word)
    (htext : text.toList = front ++ word.toList) :
    wordsBefore text =
      if (scan false front).InQuotes then splitSpaces [] (front ++ word.toList)
      else (scan false front).words ++ [String.ofList ((scan false front).token.reverse ++ word.toList)] := by
  obtain ⟨cs, c, hcs, hc⟩ := hword.exists_concat
  have hlast : text.toList = (front ++ cs) ++ [c] := by rw [htext, hcs, List.append_assoc]
  have hscan : scan false text.toList = (scan false front).run false word.toList := by
    rw [htext, scan, Scan.run_append, scan]
  have hsteady := steady_scan front
  split
  · rename_i hin
    have hquotes : ∀ d ∈ word.toList, isQuote d = false := fun d hd =>
      (isVerbatim_iff.1 (hword.chars d hd)).2.1
    obtain ⟨fault, hfault⟩ := Scan.finish_of_inQuotes (Scan.run_inQuotes hsteady hin hquotes)
    have hsplit : splitWords false text = .error fault := by rw [splitWords_eq_finish, hscan, hfault]
    have hblank : ¬ (c = ' ' ∨ c = '\t') := by rintro (rfl | rfl) <;> cases hc
    rw [wordsBefore_of_error hlast hsplit, if_neg hblank, htext]
  · rename_i hout
    have hrun := Scan.run_verbatim hsteady hout hword.chars hword.toList_ne_nil
    have hsplit : splitWords false text = .ok ((scan false front).words ++
        [String.ofList ((scan false front).token.reverse ++ word.toList)]) := by
      rw [splitWords_eq_finish, hscan, hrun]
      simp [Scan.finish]
    rw [wordsBefore_of_ok hlast hsplit, hc]
    rfl

/-- **A word that stands for itself becomes the last word of a text just if the text is ready for it.** -/
theorem wordsBefore_verbatim_iff {word : String} {words : List String} (hword : Verbatim word)
    (htext : text.toList = front ++ word.toList) :
    wordsBefore text = words ++ [word] ↔ ReadyFor front words := by
  rw [wordsBefore_verbatim hword htext, ReadyFor]
  split
  · constructor
    · intro h
      obtain ⟨front', back, hcs, hfront', hwords, -, -, hback⟩ := exists_of_splitSpaces _ h
      obtain rfl : back = [] := by
        rcases List.eq_nil_or_concat' back with hnil | ⟨before, c, rfl⟩
        · exact hnil
        · obtain ⟨cs, d, hd, hspace⟩ := hword.exists_concat
          rw [hd, ← List.append_assoc, ← List.append_assoc] at hcs
          obtain ⟨-, rfl⟩ := List.append_singleton_inj.1 hcs
          rw [hback d (by simp)] at hspace
          cases hspace
      rw [List.append_nil] at hcs
      obtain rfl := List.append_cancel_right hcs
      exact ⟨hfront', hwords⟩
    · rintro ⟨hparted, rfl⟩
      rw [splitSpaces_append hparted, splitSpaces_unspaced hword.not_space [] (by simpa using
        hword.toList_ne_nil)]
      simp
  · constructor
    · intro h
      obtain ⟨hwords, htoken⟩ := List.append_singleton_inj.1 h
      refine ⟨hwords, ?_⟩
      have hlists := congrArg String.toList htoken
      simpa using hlists
    · rintro ⟨rfl, htoken⟩
      simp [htoken]

end Reading

end Debugger

end ChunkMachine
