import ChunkMachine.Proofs.Numerals
import ChunkMachine.Proofs.WordsBefore

/-!
# What becomes of a completion

A completion says how many characters before the cursor it replaces: as many as the last word has. But the
last word is what the splitter made of the text, and the characters are those of the text. The two agree
where the word stands in the text as it was typed. Where it was typed with quotes or a backslash, the
replaced characters are others than those of the word, and what the text says afterwards has another last
word than the completion.

The argument goes over the text that is left when the replaced characters are gone. A word that stands for
itself can be put behind it as a new last word just if the text is ready for it, that is, the splitter has
nothing in hand there; and it has nothing in hand just if the replaced characters gave the last word, one
character each. Names of commands, subcommands and breakpoints stand for themselves. The user can give names
that do not, with quotes or white space in them, and the completion puts them in as they are.

## What is proved

* `verbatim_of_begins`: what is completed to a word that stands for itself stands for itself, whatever its
  case.
* `readyFor_iff_standsAsTyped`: when a text without its last word is ready for another one.
* `accept_completes_iff`: when a completion becomes the last word.
-/

namespace ChunkMachine

namespace Text

/-! ### Lower case -/

/-- The code points of the characters that mean something to the splitter or are white space. -/
def marks : List Nat :=
  [0x9, 0xA, 0xB, 0xC, 0xD, 0x1C, 0x1D, 0x1E, 0x1F, 0x20, 0x22, 0x27, 0x5C, 0x85, 0xA0, 0x1680, 0x2000,
   0x2001, 0x2002, 0x2003, 0x2004, 0x2005, 0x2006, 0x2007, 0x2008, 0x2009, 0x200A, 0x2028, 0x2029, 0x202F,
   0x205F, 0x3000]

/-- A member of a class is in its first run or in one of the others. -/
theorem CharClass.has_cons_cons {first last : Nat} {changes : CharClass} {c : Char}
    (h : CharClass.has (first :: last :: changes) c = true) :
    (first ≤ c.toNat ∧ c.toNat < last) ∨ CharClass.has changes c = true := by
  unfold CharClass.has at h ⊢
  by_cases hfirst : first ≤ c.toNat
  · by_cases hlast : last ≤ c.toNat
    · right
      simp only [List.takeWhile_cons, hfirst, hlast, decide_true, if_true, List.length_cons, beq_iff_eq] at h ⊢
      omega
    · exact .inl ⟨hfirst, Nat.lt_of_not_le hlast⟩
  · simp [hfirst] at h

theorem toNat_of_isSpace {c : Char} (h : isSpace c = true) : c.toNat ∈ marks := by
  unfold isSpace spaces at h
  simp only [marks, List.mem_cons, List.not_mem_nil, or_false]
  iterate 10
    rcases CharClass.has_cons_cons h with h | h
    · omega
  cases h

theorem isVerbatim_iff_marks {c : Char} : isVerbatim c = true ↔ c.toNat ∉ marks := by
  constructor
  · intro h hmem
    have hmarks : ∀ n ∈ marks, isVerbatim (Char.ofNat n) = false := by decide +kernel
    have hfalse := hmarks c.toNat hmem
    rw [Char.ofNat_toNat, h] at hfalse
    cases hfalse
  · intro h
    rw [isVerbatim_iff]
    refine ⟨Bool.eq_false_iff.2 fun hspace => h (toNat_of_isSpace hspace), ?_, ?_⟩
    · rw [Bool.eq_false_iff]
      intro hquote
      simp only [isQuote, Bool.or_eq_true, beq_iff_eq] at hquote
      rcases hquote with rfl | rfl <;> exact h (by decide)
    · rintro rfl
      exact h (by decide)

/-- No run of capitals reaches over a mark, and neither do their small letters. -/
theorem marks_apart_from_runs : ∀ run ∈ capitalRuns, ∀ n ∈ marks,
    ¬ (run.1 ≤ n ∧ n ≤ run.2.1) ∧
      ¬ ((run.1 : Int) + run.2.2.2 ≤ n ∧ (n : Int) ≤ run.2.1 + run.2.2.2) := by decide +kernel

/-- Marks have no small letters. -/
theorem lowerChar_of_mem_marks {c : Char} (h : c.toNat ∈ marks) : lowerChar c = c := by
  unfold lowerChar
  split
  · rename_i first last every shift hfind
    have hrun := List.find?_some hfind
    simp only [Bool.and_eq_true, decide_eq_true_eq] at hrun
    exact absurd hrun.1 (marks_apart_from_runs _ (List.mem_of_find?_eq_some hfind) _ h).1
  · rfl

/-- The character of a number has it as its code point, unless the number is that of no character. -/
theorem toNat_ofNat_of_ne_zero {n : Nat} (h : (Char.ofNat n).toNat ≠ 0) : (Char.ofNat n).toNat = n := by
  by_cases hvalid : n.isValidChar
  · have hchar : Char.ofNat n = Char.ofNatAux n hvalid := dif_pos hvalid
    rw [hchar]
    rfl
  · have hchar : Char.ofNat n = Char.ofNat 0 := dif_neg hvalid
    exact absurd (congrArg Char.toNat hchar) h

/-- No small letter is a mark. -/
theorem mem_marks_of_lowerChar {c : Char} (h : (lowerChar c).toNat ∈ marks) : c.toNat ∈ marks := by
  have hzero : 0 ∉ marks := by decide
  unfold lowerChar at h
  split at h
  · rename_i first last every shift hfind
    have hrun := List.find?_some hfind
    simp only [Bool.and_eq_true, decide_eq_true_eq] at hrun
    have hmem : ¬ ((first : Int) + shift ≤ _ ∧ _ ≤ (last : Int) + shift) :=
      (marks_apart_from_runs _ (List.mem_of_find?_eq_some hfind) _ h).2
    have hne : (Char.ofNat (c.toNat + shift).toNat).toNat ≠ 0 := fun h0 => hzero (h0 ▸ h)
    rw [toNat_ofNat_of_ne_zero hne] at hmem hne
    omega
  · exact h

theorem verbatim_lowerFrom {cs : List Char} (h : ∀ c ∈ cs, isVerbatim c = true) :
    ∀ before : List Char, ∀ c ∈ lowerFrom before cs, isVerbatim c = true := by
  induction cs with
  | nil => simp [lowerFrom]
  | cons d cs ih =>
    intro before c hc
    rw [lowerFrom, List.mem_append] at hc
    rcases hc with hc | hc
    · split at hc
      · rcases List.mem_pair.1 hc with rfl | rfl <;> decide
      split at hc
      · obtain rfl := List.mem_singleton.1 hc
        split <;> decide
      · obtain rfl := List.mem_singleton.1 hc
        have hd := isVerbatim_iff_marks.1 (h d List.mem_cons_self)
        exact isVerbatim_iff_marks.2 fun hmem => hd (mem_marks_of_lowerChar hmem)
    · exact ih (fun e he => h e (List.mem_cons_of_mem _ he)) _ c hc

theorem verbatim_of_lowerFrom {cs : List Char} :
    ∀ {before : List Char}, (∀ c ∈ lowerFrom before cs, isVerbatim c = true) →
      ∀ c ∈ cs, isVerbatim c = true := by
  induction cs with
  | nil => simp
  | cons d cs ih =>
    intro before h
    rw [lowerFrom] at h
    obtain ⟨hsmall, hrest⟩ := List.forall_mem_append.1 h
    refine List.forall_mem_cons.2 ⟨?_, ih hrest⟩
    rw [isVerbatim_iff_marks]
    intro hmem
    have hplain : d.toNat ≠ 0x130 ∧ d.toNat ≠ 0x3A3 := by
      constructor <;> intro hd <;> exact absurd (hd ▸ hmem) (by decide)
    rw [if_neg hplain.1, if_neg hplain.2, lowerChar_of_mem_marks hmem] at hsmall
    exact isVerbatim_iff_marks.1 (hsmall d (List.mem_singleton_self d)) hmem

/-- **A word that a verbatim one begins with, but for case, is verbatim itself** or empty. -/
theorem verbatim_of_begins {front word : String} (hword : Verbatim word)
    (h : begins (lower front) (lower word) = true) : ∀ c ∈ front.toList, isVerbatim c = true := by
  obtain ⟨rest, hrest⟩ := begins_iff.1 h
  have hlower : ∀ c ∈ lowerFrom [] word.toList, isVerbatim c = true := verbatim_lowerFrom hword.chars []
  have hlists := congrArg String.toList hrest
  simp only [lower, String.toList_ofList, String.toList_append] at hlists
  rw [hlists] at hlower
  exact verbatim_of_lowerFrom (List.forall_mem_append.1 hlower).1

/-- Before a word characters that separate words make no difference. -/
theorem scan_of_separators {comments : Bool} {cs : List Char} (h : ∀ c ∈ cs, isSeparator c = true) :
    scan comments cs = {} := by
  induction cs using List.reverseRecOn with
  | nil => rfl
  | append_singleton cs c ih =>
    have hcs := ih fun d hd => h d (List.mem_append_left _ hd)
    rw [scan] at hcs ⊢
    rw [Scan.run_concat, hcs]
    simp [Scan.advance, h c (by simp)]

theorem splitWords_of_separators {comments : Bool} {blank : String}
    (h : ∀ c ∈ blank.toList, isSeparator c = true) (text : String) :
    splitWords comments (blank ++ text) = splitWords comments text := by
  rw [splitWords_eq_finish, splitWords_eq_finish, String.toList_append, scan, Scan.run_append, ← scan,
    scan_of_separators h, scan]

theorem verbatim_of_all {word : String} (h : word ≠ "" ∧ word.toList.all isVerbatim = true) :
    Verbatim word := ⟨h.1, List.all_eq_true.1 h.2⟩

theorem isVerbatim_of_isDigit {c : Char} (h : c.isDigit = true) : isVerbatim c = true := by
  have hdigits : ∀ n ∈ marks, (Char.ofNat n).isDigit = false := by decide +kernel
  rw [isVerbatim_iff_marks]
  intro hmem
  have hfalse := hdigits c.toNat hmem
  rw [Char.ofNat_toNat, h] at hfalse
  cases hfalse

theorem verbatim_toString (i : Int) : Verbatim (toString i) := by
  have hdigits : ∀ c ∈ Nat.toDigits 10 i.natAbs, isVerbatim c = true := fun c hc =>
    isVerbatim_of_isDigit (isDigit_toDigits hc)
  have hne : Nat.toDigits 10 i.natAbs ≠ [] := Nat.toDigits_ne_nil
  rcases Document.toList_toString i with ⟨htext, -⟩ | ⟨htext, -⟩
  · refine ⟨fun hempty => hne ?_, htext ▸ hdigits⟩
    rw [← htext, hempty]
    rfl
  · refine ⟨fun hempty => ?_, htext ▸ List.forall_mem_cons.2 ⟨by decide, hdigits⟩⟩
    rw [hempty] at htext
    cases htext

/-- The empty word begins with nothing else. -/
theorem eq_empty_of_begins {front : String} (h : begins (lower front) (lower "") = true) : front = "" := by
  obtain ⟨rest, hrest⟩ := begins_iff.1 h
  have hlists := congrArg String.toList hrest
  simp only [lower, String.toList_ofList, String.toList_append] at hlists
  obtain ⟨hnil, -⟩ := List.append_eq_nil_iff.1 hlists.symm
  rw [← String.toList_eq_nil_iff]
  cases hfront : front.toList with
  | nil => rfl
  | cons d cs =>
    rw [hfront, lowerFrom] at hnil
    obtain ⟨hsmall, -⟩ := List.append_eq_nil_iff.1 hnil
    split_ifs at hsmall

end Text

namespace Debugger

open Text

theorem wordsBefore_blank {blank word : String} (h : ∀ c ∈ blank.toList, isSeparator c = true)
    (hword : word ≠ "") : wordsBefore (blank ++ word) = wordsBefore word := by
  have hspace : ∀ c ∈ blank.toList, isSpace c = true := fun c hc => isSpace_of_isSeparator (h c hc)
  have hparted : Parted blank.toList := fun c hc => hspace c (List.mem_of_getLast? hc)
  have hlast : (blank ++ word).toList.getLast? = word.toList.getLast? := by
    have hne : word.toList ≠ [] := fun hnil => hword (String.toList_eq_nil_iff.1 hnil)
    rw [String.toList_append, List.getLast?_append_of_ne_nil _ hne]
  unfold wordsBefore
  rw [hlast, splitWords_of_separators h, String.toList_append, splitSpaces_append hparted,
    splitSpaces_spaces hspace, List.nil_append]

/-! ### The last word as it was typed -/

/-- The last word stands at the end of the text just as it is: the text ends with it, and if white space
comes last, then it separates words and is not protected by a backslash. -/
structure StandsAsTyped (text word : String) : Prop where
  suffix : ∃ front, text = front ++ word
  apart : ∀ front c, text.toList = front ++ [c] → isSpace c = true →
    isSeparator c = true ∧ (scan false front).mode ≠ .escape

section LastWord

variable {text word : String} {words : List String}

theorem exists_concat_of_wordsBefore (h : wordsBefore text = words ++ [word]) :
    ∃ front c, text.toList = front ++ [c] := by
  rcases List.eq_nil_or_concat' text.toList with hnil | hconcat
  · simp [wordsBefore, hnil] at h
  · exact hconcat

/-- A text that is cut at white space has no empty word but at its end. -/
theorem wordsBefore_of_error_empty {front : List Char} {c : Char} {fault : WordFault}
    (htext : text.toList = front ++ [c]) (hsplit : splitWords false text = .error fault)
    (h : wordsBefore text = words ++ [""]) :
    isSpace c = true ∧ isSeparator c = true ∧ splitSpaces [] text.toList = words := by
  rw [wordsBefore_of_error htext hsplit] at h
  split at h
  · rename_i hblank
    rcases hblank with rfl | rfl <;> exact ⟨by decide, by decide, List.append_cancel_right h⟩
  · obtain ⟨-, -, -, -, -, hne, -⟩ := exists_of_splitSpaces _ h
    exact absurd rfl hne

theorem standsAsTyped_empty_iff {front : List Char} {c : Char} (htext : text.toList = front ++ [c]) :
    StandsAsTyped text "" ↔
      (isSpace c = true → isSeparator c = true ∧ (scan false front).mode ≠ .escape) := by
  constructor
  · intro hstands
    exact hstands.apart front c htext
  · intro hc
    refine ⟨⟨text, by simp⟩, fun front' c' htext' hc' => ?_⟩
    obtain ⟨rfl, rfl⟩ := List.append_singleton_inj.1 (htext.symm.trans htext')
    exact hc hc'

/-- White space makes an empty last word. The text is ready for another one if it ends a word, or if the
text is cut at it. -/
theorem readyFor_iff_of_space {front : List Char} {c : Char} (htext : text.toList = front ++ [c])
    (hc : isSpace c = true) (h : wordsBefore text = words ++ [""]) :
    ReadyFor text.toList words ↔ isSeparator c = true ∧ (scan false front).mode ≠ .escape := by
  have hsteady := steady_scan front
  have hscan : scan false text.toList = (scan false front).advance false c := by
    rw [htext, scan, Scan.run_concat, scan]
  by_cases hin : (scan false front).InQuotes
  · have hin' : (scan false text.toList).InQuotes := by
      rw [hscan]
      exact Scan.advance_inQuotes hsteady hin (not_quote_of_isSpace hc).1
    obtain ⟨fault, hfault⟩ := Scan.finish_of_inQuotes hin'
    obtain ⟨-, hseparator, hwords⟩ :=
      wordsBefore_of_error_empty htext ((splitWords_eq_finish false text).trans hfault) h
    have hmode : (scan false front).mode ≠ .escape := by
      intro hescape
      simp [Scan.InQuotes, hescape] at hin
    rw [ReadyFor, if_pos hin', htext]
    exact ⟨fun _ => ⟨hseparator, hmode⟩, fun _ => ⟨parted_concat.2 hc, htext ▸ hwords⟩⟩
  · have hspace := Scan.advance_space hsteady hin hc
    rw [← hscan] at hspace
    rw [ReadyFor]
    split at hspace
    · rename_i hends
      have hout : ¬ (scan false text.toList).InQuotes := by simp [Scan.InQuotes, hspace]
      have hsplit : splitWords false text = .ok (scan false text.toList).words := by
        simp [splitWords_eq_finish, Scan.finish, hspace]
      rw [wordsBefore_of_ok htext hsplit, if_pos hc] at h
      rw [if_neg hout]
      exact ⟨fun _ => hends, fun _ => ⟨List.append_cancel_right h, (steady_scan text.toList).between hspace⟩⟩
    · rename_i hstays
      have hout : ¬ (scan false text.toList).InQuotes := by simp [Scan.InQuotes, hspace.1]
      rw [if_neg hout]
      exact ⟨fun hready => absurd hready.2 hspace.2, fun hends => absurd hends hstays⟩

/-- After anything else an empty last word comes from empty quotes, and another one can follow them. -/
theorem readyFor_of_not_space {front : List Char} {c : Char} (htext : text.toList = front ++ [c])
    (hc : ¬ isSpace c = true) (h : wordsBefore text = words ++ [""]) : ReadyFor text.toList words := by
  have hsteady := steady_scan text.toList
  cases hsplit : splitWords false text with
  | error fault => exact absurd (wordsBefore_of_error_empty htext hsplit h).1 hc
  | ok all =>
    rw [wordsBefore_of_ok htext hsplit, if_neg hc] at h
    subst h
    have hbetween : (scan false text.toList).mode ≠ .between := by
      intro hmode
      rw [htext, scan, Scan.run_concat, ← scan] at hmode
      exact hc (isSpace_of_isSeparator (Scan.isSeparator_of_between (steady_scan front) hmode))
    rw [splitWords_eq_finish] at hsplit
    rw [ReadyFor]
    generalize scan false text.toList = x at *
    obtain ⟨before, mode, token⟩ := x
    cases mode with
    | word =>
      obtain ⟨hwords, htoken⟩ := List.append_singleton_inj.1 (Except.ok.inj hsplit)
      rw [if_neg (by simp [Scan.InQuotes])]
      exact ⟨hwords, by simpa using congrArg String.toList htoken⟩
    | between => exact absurd rfl hbetween
    | comment => exact absurd rfl hsteady.no_comment
    | quote | escape | quoteEscape => cases hsplit

/-- An empty last word comes from white space that separates words, or from empty quotes. -/
theorem readyFor_iff_of_empty (h : wordsBefore text = words ++ [""]) :
    ReadyFor text.toList words ↔ StandsAsTyped text "" := by
  obtain ⟨front, c, htext⟩ := exists_concat_of_wordsBefore h
  rw [standsAsTyped_empty_iff htext]
  by_cases hc : isSpace c = true
  · rw [readyFor_iff_of_space htext hc h]
    exact ⟨fun hends _ => hends, fun hends => hends hc⟩
  · exact ⟨fun _ hspace => absurd hspace hc, fun _ => readyFor_of_not_space htext hc h⟩

/-- A text that is split and ends with a word that is not empty: the words are those of the splitter. -/
theorem splitWords_of_wordsBefore {all : List String} (hword : word ≠ "")
    (h : wordsBefore text = words ++ [word]) (hsplit : splitWords false text = .ok all) :
    all = words ++ [word] := by
  obtain ⟨front, c, htext⟩ := exists_concat_of_wordsBefore h
  rw [wordsBefore_of_ok htext hsplit] at h
  split at h
  · exact absurd (List.append_singleton_inj.1 h).2.symm hword
  · exact h

/-- A text that cannot be split and ends with a word that is not empty: the words are those between white
space. -/
theorem splitSpaces_of_wordsBefore {fault : WordFault} (hword : word ≠ "")
    (h : wordsBefore text = words ++ [word]) (hsplit : splitWords false text = .error fault) :
    splitSpaces [] text.toList = words ++ [word] := by
  obtain ⟨front, c, htext⟩ := exists_concat_of_wordsBefore h
  rw [wordsBefore_of_error htext hsplit] at h
  split at h
  · exact absurd (List.append_singleton_inj.1 h).2.symm hword
  · exact h

/-- So many characters that give the last word are that word, if the text before them is ready for it and
the whole can be split. -/
theorem eq_of_readyFor_of_ok {front back : List Char} {all : List String} (hword : Verbatim word)
    (h : wordsBefore text = words ++ [word]) (htext : text.toList = front ++ back)
    (hlength : back.length ≤ word.toList.length) (hready : ReadyFor front words)
    (hsplit : splitWords false text = .ok all) : back = word.toList := by
  obtain rfl := splitWords_of_wordsBefore hword.ne_empty h hsplit
  have hsteady := steady_scan front
  have hfinish : ((scan false front).run false back).finish = .ok (words ++ [word]) := by
    rw [← hsplit, splitWords_eq_finish, htext, scan, scan, Scan.run_append]
  unfold ReadyFor at hready
  split at hready
  · -- white space before the cursor is in the quotes, and so in one of the words
    rename_i hin
    obtain ⟨hparted, hwords⟩ := hready
    rcases List.eq_nil_or_concat' front with rfl | ⟨before, c, rfl⟩
    · simp [scan, Scan.run, Scan.InQuotes] at hin
    · have hc := parted_concat.1 hparted
      have hscan : scan false (before ++ [c]) = (scan false before).advance false c := Scan.run_concat ..
      have hholds : (scan false (before ++ [c])).Holds c := by
        rw [hscan] at hin ⊢
        exact Scan.holds_of_inQuotes hc hin
      obtain ⟨w, hw, hmem⟩ := Scan.exists_mem_of_finish hsteady hholds hfinish
      have hunspaced : isSpace c = false := by
        rcases List.mem_append.1 hw with hw | hw
        · rw [← hwords] at hw
          exact not_space_of_mem_splitSpaces (by simp) w hw c hmem
        · obtain rfl := List.mem_singleton.1 hw
          exact hword.not_space c hmem
      rw [hc] at hunspaced
      cases hunspaced
  · -- otherwise no character is lost
    rename_i hout
    obtain ⟨rfl, htoken⟩ := hready
    have hmode : (scan false front).mode ≠ .quoteEscape := fun hmode => hout (.inr hmode)
    have hweight : (scan false front).weight = ((scan false front).words.map String.length).sum := by
      simp [Scan.weight, htoken, hmode]
    have hsum := Scan.sum_length_le_weight (Scan.steady_run hsteady back) hfinish
    have hlower := Scan.weight_run_le (scan false front) back
    rw [List.map_append, List.sum_append, List.map_singleton, List.sum_singleton,
      ← String.length_toList] at hsum
    have hne : back ≠ [] := by
      rintro rfl
      have hpos := List.length_pos_iff.2 hword.toList_ne_nil
      simp only [List.length_nil] at hlower
      omega
    rw [Scan.run_of_full_weight hsteady hout (by omega) hne, htoken] at hfinish
    obtain ⟨-, hlast⟩ := List.append_singleton_inj.1 (Except.ok.inj hfinish)
    simpa using congrArg String.toList hlast

/-- A text is not ready for a word in the middle of another one. -/
theorem not_readyFor_of_verbatim (front : List Char) {run : List Char} (hne : run ≠ [])
    (hrun : ∀ c ∈ run, isVerbatim c = true) : ¬ ReadyFor (front ++ run) words := by
  have hscan : scan false (front ++ run) = (scan false front).run false run := by
    rw [scan, Scan.run_append, scan]
  have hsteady := steady_scan front
  unfold ReadyFor
  rintro hready
  split at hready
  · rcases List.eq_nil_or_concat' run with hnil | ⟨before, c, rfl⟩
    · exact hne hnil
    · have hspace := hready.1
      rw [← List.append_assoc, parted_concat, (isVerbatim_iff.1 (hrun c (by simp))).1] at hspace
      cases hspace
  · rename_i hout
    rw [hscan] at hout hready
    by_cases hin : (scan false front).InQuotes
    · exact hout (Scan.run_inQuotes hsteady hin fun c hc => (isVerbatim_iff.1 (hrun c hc)).2.1)
    · rw [Scan.run_verbatim hsteady hin hrun hne] at hready
      simp [hne] at hready

/-- The same if the text cannot be split. -/
theorem eq_of_readyFor_of_error {front back : List Char} {fault : WordFault} (hword : Verbatim word)
    (h : wordsBefore text = words ++ [word]) (htext : text.toList = front ++ back)
    (hlength : back.length = word.toList.length) (hready : ReadyFor front words)
    (hsplit : splitWords false text = .error fault) : back = word.toList := by
  have hcut := splitSpaces_of_wordsBefore hword.ne_empty h hsplit
  obtain ⟨before, after, hall, hparted, hbefore, -, hunspaced, hafter⟩ := exists_of_splitSpaces _ hcut
  have hnil : ∀ {gap : List Char}, back = gap ++ (word.toList ++ after) → back = word.toList := by
    intro gap hback
    have hlengths := congrArg List.length hback
    simp only [List.length_append, hlength] at hlengths
    obtain rfl := List.length_eq_zero_iff.1 (show gap.length = 0 by omega)
    obtain rfl := List.length_eq_zero_iff.1 (show after.length = 0 by omega)
    simpa using hback
  rw [htext, List.append_assoc, List.append_eq_append_iff] at hall
  rcases hall with ⟨gap, -, hback⟩ | ⟨start, rfl, hrest⟩
  · exact hnil hback
  rcases List.append_eq_append_iff.1 hrest with ⟨gap, rfl, rfl⟩ | ⟨rest, hstart, hback⟩
  · -- the text before the cursor reaches over the word, and what follows is white space
    exfalso
    have hspaces : ∀ c ∈ back, isSpace c = true := fun c hc => hafter c (List.mem_append_right _ hc)
    have hgap : ∀ c ∈ gap, isSpace c = true := fun c hc => hafter c (List.mem_append_left _ hc)
    have hne : back ≠ [] := List.length_pos_iff.1 (hlength ▸ List.length_pos_iff.2 hword.toList_ne_nil)
    unfold ReadyFor at hready
    split at hready
    · obtain ⟨-, hfront⟩ := hready
      rw [← List.append_assoc, splitSpaces_append_spaces _ hgap, splitSpaces_append hparted, hbefore,
        splitSpaces_unspaced hunspaced [] (by simpa using hword.toList_ne_nil)] at hfront
      simp at hfront
    · rename_i hout
      obtain ⟨all, hfinish⟩ := Scan.exists_finish_of_spaces (steady_scan _) hout hspaces hne
      rw [splitWords_eq_finish, htext, scan, Scan.run_append, ← scan, hfinish] at hsplit
      cases hsplit
  · by_cases hempty : start = []
    · subst hempty
      exact @hnil [] (by rw [hback, hstart]; simp)
    · refine absurd hready (not_readyFor_of_verbatim before hempty fun c hc => hword.chars c ?_)
      rw [hstart]
      exact List.mem_append_left _ hc

/-- The last word is not longer than the text. -/
theorem length_le_of_wordsBefore (h : wordsBefore text = words ++ [word]) :
    word.toList.length ≤ text.toList.length := by
  by_cases hempty : word = ""
  · simp [hempty]
  cases hsplit : splitWords false text with
  | ok all =>
    obtain rfl := splitWords_of_wordsBefore hempty h hsplit
    rw [splitWords_eq_finish] at hsplit
    have hsum := Scan.sum_length_le_weight (steady_scan _) hsplit
    have hweight : (scan false text.toList).weight ≤ Scan.weight {} + text.toList.length :=
      Scan.weight_run_le {} text.toList
    have hstart : Scan.weight {} = 0 := rfl
    rw [List.map_append, List.sum_append, List.map_singleton, List.sum_singleton,
      ← String.length_toList] at hsum
    omega
  | error fault =>
    obtain ⟨before, after, hall, -⟩ := exists_of_splitSpaces _ (splitSpaces_of_wordsBefore hempty h hsplit)
    rw [hall]
    simp only [List.length_append]
    omega

/-- **A text without its last word is ready for another one just if that word stands as it was typed.** -/
theorem readyFor_iff_standsAsTyped (hchars : ∀ c ∈ word.toList, isVerbatim c = true)
    (h : wordsBefore text = words ++ [word]) :
    ReadyFor (text.toList.take (text.toList.length - word.toList.length)) words ↔
      StandsAsTyped text word := by
  by_cases hempty : word = ""
  · subst hempty
    simpa using readyFor_iff_of_empty h
  have hword : Verbatim word := ⟨hempty, hchars⟩
  constructor
  · intro hready
    have htext := (List.take_append_drop (text.toList.length - word.toList.length) text.toList).symm
    have hlength : (text.toList.drop (text.toList.length - word.toList.length)).length =
        word.toList.length := by
      have hle := length_le_of_wordsBefore h
      rw [List.length_drop]
      omega
    have hback : text.toList.drop (text.toList.length - word.toList.length) = word.toList := by
      cases hsplit : splitWords false text with
      | ok all => exact eq_of_readyFor_of_ok hword h htext (Nat.le_of_eq hlength) hready hsplit
      | error fault => exact eq_of_readyFor_of_error hword h htext hlength hready hsplit
    rw [hback] at htext
    refine ⟨⟨String.ofList _, String.toList_inj.1 (by simpa using htext)⟩, fun front c hlast hspace => ?_⟩
    obtain ⟨cs, d, hcs, hd⟩ := hword.exists_concat
    rw [htext, hcs, ← List.append_assoc] at hlast
    obtain ⟨-, rfl⟩ := List.append_singleton_inj.1 hlast
    rw [hd] at hspace
    cases hspace
  · rintro ⟨⟨front, rfl⟩, -⟩
    have hfront : (front ++ word).toList.take ((front ++ word).toList.length - word.toList.length) =
        front.toList := by simp
    rw [hfront]
    exact (wordsBefore_verbatim_iff hword String.toList_append).1 h

end LastWord

/-! ### Completions -/

/-- Put a completion in: it replaces the characters before the cursor that it says. -/
def Completion.accept (c : Completion) (text : String) : String :=
  String.ofList (text.toList.take (text.length - (-c.start).toNat)) ++ c.text

/-- What is completed is the path of a program. -/
def CompletesPath (r : Registry) (s : Session) (text : String) : Prop :=
  ∃ first word, wordsBefore text = [first, word] ∧ commandMeant r s first = "load"

theorem mem_inOrder {l : List String} {entry : String} (h : entry ∈ inOrder l) : entry ∈ l := by
  rw [inOrder, List.mem_mergeSort, List.mem_eraseDups] at h
  exact h

/-- A completion is a candidate that begins with the word, but for case, and replaces as much as the word
is long. -/
theorem of_mem_completing {word : String} {candidates : List String} {c : Completion}
    (h : c ∈ completing word candidates) :
    c.text ∈ candidates ∧ c.start = -(word.length : Int) ∧
      begins (lower word) (lower c.text) = true := by
  obtain ⟨entry, hentry, rfl⟩ := List.mem_map.1 h
  obtain ⟨hmem, hbegins⟩ := List.mem_filter.1 hentry
  exact ⟨mem_inOrder hmem, rfl, hbegins⟩

/-- What is completed: the name of a command if there is one word, and else a subcommand or a breakpoint. -/
theorem of_mem_complete {paths : String → Except Escape (List Completion)} {s : Session}
    {text word : String} {words : List String} {l : List Completion} {c : Completion}
    (hl : complete paths registry s text = .ok l) (hc : c ∈ l)
    (hpath : ¬ CompletesPath registry s text) (hwords : wordsBefore text = words ++ [word]) :
    ∃ candidates, c ∈ completing word candidates ∧
      (words = [] ∧ candidates = commandNames registry s ∨
        candidates = breakSubcommands.map (·.1) ∨ candidates = s.breakpoints.map toString) := by
  unfold complete at hl
  split at hl
  · rename_i hnil
    rw [hnil] at hwords
    simp at hwords
  · rename_i only hone
    have hlast : words ++ [word] = [] ++ [only] := hwords.symm.trans hone
    obtain ⟨rfl, rfl⟩ := List.append_singleton_inj.1 hlast
    cases hl
    exact ⟨_, hc, .inl ⟨rfl, rfl⟩⟩
  · rename_i first last htwo
    have hlast : words ++ [word] = [first] ++ [last] := hwords.symm.trans htwo
    obtain ⟨-, rfl⟩ := List.append_singleton_inj.1 hlast
    split at hl
    · rename_i hload
      exact absurd ⟨first, word, htwo, hload⟩ hpath
    · cases hl
      exact ⟨_, hc, .inr (.inl rfl)⟩
    · cases hl
      cases hc
  · rename_i first second rest hnot hmany
    split at hl
    · have hword : rest.getLastD "" = word := by
        have hrest : rest ≠ [] := by
          rintro rfl
          exact hnot rfl
        obtain ⟨init, last, rfl⟩ := (List.eq_nil_or_concat' rest).resolve_left hrest
        have hlast : words ++ [word] = first :: second :: init ++ [last] := hwords.symm.trans hmany
        rw [List.getLastD_concat]
        exact (List.append_singleton_inj.1 hlast).2.symm
      unfold completingBreakpoint at hl
      split at hl
      · cases hl
        exact ⟨_, hword ▸ hc, .inr (.inr rfl)⟩
      · cases hl
    · cases hl
      cases hc

/-- Only the names that the user gave can be anything else than words that stand for themselves. -/
theorem verbatim_or_alias {s : Session} {words : List String} {candidates : List String} {entry : String}
    (h : words = [] ∧ candidates = commandNames registry s ∨
      candidates = breakSubcommands.map (·.1) ∨ candidates = s.breakpoints.map toString)
    (hentry : entry ∈ candidates) : Verbatim entry ∨ words = [] ∧ entry ∈ s.aliases.map (·.1) := by
  rcases h with ⟨rfl, rfl⟩ | rfl | rfl
  · rcases List.mem_append.1 hentry with hname | halias
    · have hnames : ∀ name ∈ registry.commands.flatMap (fun c => c.name :: c.aliases),
          name ≠ "" ∧ name.toList.all isVerbatim = true := by decide +kernel
      exact .inl (verbatim_of_all (hnames entry hname))
    · exact .inr ⟨rfl, halias⟩
  · have hnames : ∀ name ∈ breakSubcommands.map (·.1), name ≠ "" ∧ name.toList.all isVerbatim = true := by
      decide +kernel
    exact .inl (verbatim_of_all (hnames entry hentry))
  · obtain ⟨i, -, rfl⟩ := List.mem_map.1 hentry
    exact .inl (verbatim_toString i)

/-- **A completion of a name, a subcommand or a breakpoint becomes the last word just if the word that it
replaces stands in the text as it was typed.** This is so for every entry that stands for itself. Other
entries are only among the names that the user gave; such an entry, where nothing but white space comes
before the word, must itself be read as one word. -/
theorem accept_completes_iff {paths : String → Except Escape (List Completion)} {s : Session}
    {text word : String} {words : List String} {l : List Completion} {c : Completion}
    (hl : complete paths registry s text = .ok l) (hc : c ∈ l)
    (hpath : ¬ CompletesPath registry s text) (hwords : wordsBefore text = words ++ [word]) :
    (Verbatim c.text →
      (wordsBefore (c.accept text) = words ++ [c.text] ↔ StandsAsTyped text word)) ∧
    (¬ Verbatim c.text →
      words = [] ∧ c.text ∈ s.aliases.map (·.1) ∧
        ∀ blank, (∀ d ∈ blank.toList, isSeparator d = true) → text = blank ++ word →
          (wordsBefore (c.accept text) = words ++ [c.text] ↔
            c.text = "" ∨ wordsBefore c.text = [c.text])) := by
  obtain ⟨candidates, hcompleting, hcandidates⟩ := of_mem_complete hl hc hpath hwords
  obtain ⟨hentry, hstart, hbegins⟩ := of_mem_completing hcompleting
  have haccept : (c.accept text).toList =
      text.toList.take (text.toList.length - word.toList.length) ++ c.text.toList := by
    simp only [Completion.accept, hstart, Int.neg_neg, Int.toNat_natCast, String.toList_append,
      String.toList_ofList, String.length_toList]
  constructor
  · intro hverbatim
    rw [wordsBefore_verbatim_iff hverbatim haccept]
    exact readyFor_iff_standsAsTyped (verbatim_of_begins hverbatim hbegins) hwords
  · intro hother
    obtain ⟨rfl, halias⟩ := (verbatim_or_alias hcandidates hentry).resolve_left hother
    refine ⟨rfl, halias, fun blank hblank htext => ?_⟩
    have hput : c.accept text = blank ++ c.text := by
      rw [← String.toList_inj, haccept, htext]
      simp
    rw [List.nil_append, hput]
    by_cases hempty : c.text = ""
    · rw [hempty] at hbegins
      obtain rfl := eq_empty_of_begins hbegins
      rw [hempty, ← htext]
      simpa using hwords
    · rw [wordsBefore_blank hblank hempty]
      simp [hempty]

/-- Between quotes the completion takes a quote with it and leaves one behind. -/
theorem accept_completes_not_in_quotes :
    complete (fun _ => .ok []) registry {} "break \"cl\"" =
        .ok [⟨"clear", -2, "clear"⟩, ⟨"clearall", -2, "clearall"⟩] ∧
      wordsBefore "break \"cl\"" = ["break", "cl"] ∧
      wordsBefore (Completion.accept ⟨"clear", -2, "clear"⟩ "break \"cl\"") ≠ ["break", "clear"] ∧
      ¬ StandsAsTyped "break \"cl\"" "cl" := by
  have hwords : wordsBefore "break \"cl\"" = ["break"] ++ ["cl"] := by decide +kernel
  have hmeant : commandMeant registry {} "break" = "break" := by decide +kernel
  have hpath : ¬ CompletesPath registry {} "break \"cl\"" := by
    rintro ⟨first, last, hpath, hload⟩
    obtain ⟨hfirst, -⟩ := List.cons.inj (hwords.symm.trans hpath)
    rw [← hfirst, hmeant] at hload
    exact absurd hload (by decide)
  have hsorted : inOrder (breakSubcommands.map (·.1)) = breakSubcommands.map (·.1) := by
    have hdistinct : (breakSubcommands.map (·.1)).eraseDups = breakSubcommands.map (·.1) := by
      decide +kernel
    rw [inOrder, hdistinct, List.mergeSort_of_pairwise (by decide +kernel)]
  have hoffered : completing "cl" (breakSubcommands.map (·.1)) =
      [⟨"clear", -2, "clear"⟩, ⟨"clearall", -2, "clearall"⟩] := by
    rw [completing, hsorted]
    decide +kernel
  have hcomplete : complete (fun _ => .ok []) registry {} "break \"cl\"" =
      .ok [⟨"clear", -2, "clear"⟩, ⟨"clearall", -2, "clearall"⟩] := by
    simp [complete, hwords, hmeant, hoffered]
  have hclear : Verbatim "clear" := verbatim_of_all (by decide +kernel)
  have hiff := (accept_completes_iff hcomplete List.mem_cons_self hpath hwords).1 hclear
  have hwrong : wordsBefore (Completion.accept ⟨"clear", -2, "clear"⟩ "break \"cl\"") ≠
      ["break", "clear"] := by decide +kernel
  exact ⟨hcomplete, hwords, hwrong, fun hstands => hwrong (hiff.2 hstands)⟩

end Debugger

end ChunkMachine
