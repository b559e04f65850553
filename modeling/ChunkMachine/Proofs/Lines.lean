import ChunkMachine.Proofs.Quoting
import Mathlib.Data.List.DropRight
import Mathlib.Tactic.SplitIfs

/-!
# Lines of a text

A text is cut into lines at any of ten characters, after carriage returns have been turned into line
feeds. Whoever joins texts by line feeds gets them back only if none of these characters stands within
one of them, and if none of them ends in the middle of a line end or is empty.

Texts that were stripped of white space are of the latter kind, for the characters that end a line are
all white space. So what is left to ask of them is that they are `Unbroken`.

## What is proved

* `strip_strip`, `tidy_strip`: a stripped text neither begins nor ends with white space.
* `lines_append`: a tidy text that is followed by a line feed ends a line.
* `lines_of_unbroken`, `unbroken_of_mem_lines`: the texts that are one line.
-/

namespace ChunkMachine.Text

/-! ### Stripping -/

theorem toList_strip (s : String) :
    (strip s).toList = (s.toList.dropWhile isSpace).rdropWhile isSpace := by
  rw [strip, String.toList_ofList]
  rfl

theorem mem_of_mem_strip {s : String} {c : Char} (h : c ∈ (strip s).toList) : c ∈ s.toList := by
  rw [toList_strip] at h
  exact (List.dropWhile_suffix _).subset ((List.rdropWhile_prefix _ _).subset h)

theorem head_strip (s : String) : ∀ c ∈ (strip s).toList.head?, isSpace c = false := by
  intro c hc
  rw [toList_strip] at hc
  have hfirst : (s.toList.dropWhile isSpace).head? = some c := by
    obtain ⟨t, ht⟩ := List.rdropWhile_prefix isSpace (s.toList.dropWhile isSpace)
    rw [← ht, List.head?_append, hc]
    rfl
  have hspace := List.head?_dropWhile_not isSpace s.toList
  rw [hfirst] at hspace
  simpa using hspace

theorem getLast_strip (s : String) : ∀ c ∈ (strip s).toList.getLast?, isSpace c = false := by
  intro c hc
  rw [toList_strip] at hc
  obtain ⟨hne, hlast⟩ := List.mem_getLast?_eq_getLast hc
  have hspace := List.rdropWhile_last_not isSpace _ hne
  rw [← hlast] at hspace
  simpa using hspace

theorem strip_strip (s : String) : strip (strip s) = strip s :=
  strip_of_ends (head_strip s) (getLast_strip s)

/-- The text is not empty and has no white space around it. -/
structure Tidy (s : String) : Prop where
  ne_empty : s ≠ ""
  strip_eq : strip s = s

theorem tidy_strip {s : String} (h : strip s ≠ "") : Tidy (strip s) := ⟨h, strip_strip s⟩

/-! ### Line ends -/

/-- No character of the text ends a line. -/
def Unbroken (s : String) : Prop := ∀ c ∈ s.toList, isLineBreak c = false

instance (s : String) : Decidable (Unbroken s) :=
  inferInstanceAs (Decidable (∀ c ∈ s.toList, isLineBreak c = false))

theorem Unbroken.strip {s : String} (h : Unbroken s) : Unbroken (strip s) := fun c hc =>
  h c (mem_of_mem_strip hc)

theorem toNat_of_isLineBreak {c : Char} (h : isLineBreak c = true) :
    c.toNat ∈ [10, 11, 12, 13, 28, 29, 30, 133, 8232, 8233] := by
  simp only [isLineBreak, CharClass.has, lineBreaks, List.takeWhile_cons, List.takeWhile_nil,
    decide_eq_true_eq] at h
  simp only [List.mem_cons, List.not_mem_nil, or_false]
  split_ifs at h <;> simp at h <;> omega

theorem isSpace_of_isLineBreak {c : Char} (h : isLineBreak c = true) : isSpace c = true := by
  have hspaces : ∀ n ∈ [10, 11, 12, 13, 28, 29, 30, 133, 8232, 8233],
      ((spaces.takeWhile (· ≤ n)).length % 2 == 1) = true := by decide
  exact hspaces c.toNat (toNat_of_isLineBreak h)

/-- A tidy text does not end in the middle of a line end. -/
theorem Tidy.getLast {s : String} (h : Tidy s) : ∃ c ∈ s.toList.getLast?, isLineBreak c = false := by
  have hne : s.toList ≠ [] := fun hnil => h.ne_empty (String.toList_inj.1 (by simpa using hnil))
  refine ⟨s.toList.getLast hne, List.getLast?_eq_some_getLast hne, ?_⟩
  have hspace : isSpace (s.toList.getLast hne) = false := by
    refine getLast_strip s _ ?_
    rw [h.strip_eq]
    exact List.getLast?_eq_some_getLast hne
  rw [Bool.eq_false_iff]
  intro hbreak
  rw [isSpace_of_isLineBreak hbreak] at hspace
  cases hspace

theorem unifyNewlines_cons {c : Char} (hc : c ≠ '\x0d') (cs : List Char) :
    unifyNewlines (c :: cs) = c :: unifyNewlines cs := by
  rw [unifyNewlines]
  · rintro _ rfl
    exact absurd rfl hc
  · rintro rfl
    exact absurd rfl hc

/-- Line ends are unified piece by piece, unless the cut is in the middle of one. -/
theorem unifyNewlines_append (cs : List Char) {d : Char} (hd : d ≠ '\n') (ds : List Char) :
    unifyNewlines (cs ++ d :: ds) = unifyNewlines cs ++ unifyNewlines (d :: ds) := by
  fun_induction unifyNewlines cs with
  | case1 => rfl
  | case2 cs ih => rw [List.cons_append, List.cons_append, unifyNewlines, ih, List.cons_append]
  | case3 cs hcs ih =>
    rw [List.cons_append, unifyNewlines, ih, List.cons_append]
    rintro cs' h
    cases cs with
    | nil =>
      cases h
      exact hd rfl
    | cons c cs =>
      cases h
      exact hcs _ rfl
  | case4 c cs _ hc ih => rw [List.cons_append, unifyNewlines_cons hc, ih, List.cons_append]

theorem unifyNewlines_of_unbroken {cs : List Char} (h : ∀ c ∈ cs, isLineBreak c = false) :
    unifyNewlines cs = cs := by
  induction cs with
  | nil => rfl
  | cons c cs ih =>
    have hc : c ≠ '\x0d' := by
      rintro rfl
      exact absurd (h _ List.mem_cons_self) (by decide)
    rw [unifyNewlines_cons hc, ih fun d hd => h d (List.mem_cons_of_mem c hd)]

/-! ### Lines -/

/-- A line feed after a character that ends no line ends one. -/
theorem splitLines_append {c : Char} (hc : isLineBreak c = false) (ds : List Char) (cs : List Char) :
    ∀ line, splitLines line (cs ++ c :: '\n' :: ds) =
      splitLines line (cs ++ [c]) ++ splitLines [] ds := by
  have hnewline : isLineBreak '\n' = true := by decide
  induction cs with
  | nil =>
    intro line
    simp [splitLines, hc, hnewline]
  | cons d cs ih =>
    intro line
    rw [List.cons_append, List.cons_append, splitLines, splitLines]
    split
    · rw [ih, List.cons_append]
    · rw [ih]

theorem splitLines_of_unbroken {cs : List Char} (h : ∀ c ∈ cs, isLineBreak c = false) :
    ∀ {line : List Char}, line ≠ [] ∨ cs ≠ [] →
      splitLines line cs = [String.ofList (line.reverse ++ cs)] := by
  induction cs with
  | nil =>
    intro line hne
    cases line with
    | nil => simp at hne
    | cons d line => simp [splitLines]
  | cons c cs ih =>
    intro line _
    have hc := h c List.mem_cons_self
    rw [splitLines, hc, if_neg Bool.false_ne_true, ih fun d hd => h d (List.mem_cons_of_mem c hd)]
    · simp
    · simp

theorem unbroken_of_mem_splitLines (cs : List Char) : ∀ {line : List Char} {s : String},
    (∀ c ∈ line, isLineBreak c = false) → s ∈ splitLines line cs → Unbroken s := by
  induction cs with
  | nil =>
    intro line s hline hs c hc
    cases line with
    | nil => cases hs
    | cons d line =>
      rw [splitLines, List.mem_singleton] at hs
      · subst hs
        rw [String.toList_ofList, List.mem_reverse] at hc
        exact hline c hc
      · simp
  | cons d cs ih =>
    intro line s hline hs
    rw [splitLines] at hs
    split at hs
    · rcases List.mem_cons.1 hs with rfl | hs
      · intro c hc
        rw [String.toList_ofList, List.mem_reverse] at hc
        exact hline c hc
      · exact ih (by simp) hs
    · rename_i hd
      refine ih ?_ hs
      intro c hc
      rcases List.mem_cons.1 hc with rfl | hc
      · simpa using hd
      · exact hline c hc

/-- **A text that is followed by a line feed ends a line**, unless it ends one by itself. -/
theorem lines_append {s : String} (h : ∃ c ∈ s.toList.getLast?, isLineBreak c = false) (t : String) :
    lines (s ++ "\n" ++ t) = lines s ++ lines t := by
  obtain ⟨c, hlast, hc⟩ := h
  obtain ⟨cs, hs⟩ := List.getLast?_eq_some_iff.1 hlast
  have hreturn : c ≠ '\x0d' := by
    rintro rfl
    exact absurd hc (by decide)
  have hnewline : c ≠ '\n' := by
    rintro rfl
    exact absurd hc (by decide)
  have hwhole : unifyNewlines (s ++ "\n" ++ t).toList =
      unifyNewlines cs ++ c :: '\n' :: unifyNewlines t.toList := by
    have hchars : (s ++ "\n" ++ t).toList = cs ++ c :: '\n' :: t.toList := by simp [hs]
    rw [hchars, unifyNewlines_append cs hnewline, unifyNewlines_cons hreturn,
      unifyNewlines_cons (by decide)]
  have hfirst : unifyNewlines s.toList = unifyNewlines cs ++ [c] := by
    rw [hs, unifyNewlines_append cs hnewline, unifyNewlines_cons hreturn]
    rfl
  rw [lines, lines, lines, hwhole, hfirst, splitLines_append hc]

theorem lines_of_unbroken {s : String} (hs : s ≠ "") (h : Unbroken s) : lines s = [s] := by
  have hne : s.toList ≠ [] := fun hnil => hs (String.toList_inj.1 (by simpa using hnil))
  rw [lines, unifyNewlines_of_unbroken h, splitLines_of_unbroken h (.inr hne)]
  simp

theorem unbroken_of_mem_lines {s line : String} (h : line ∈ lines s) : Unbroken line :=
  unbroken_of_mem_splitLines _ (by simp) h

end ChunkMachine.Text
