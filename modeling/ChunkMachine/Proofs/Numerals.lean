import ChunkMachine.Proofs.Presentation
import ChunkMachine.Proofs.Reading
import Mathlib.Data.List.TakeWhile

/-!
# Integers are read as they are written

The debugger writes integers in base ten and reads them from the words of a line. What is written is read again:
the digits of a number are digits for the reader too, they do not begin with a zero, which would have to announce
another base, and there is no white space around them. The parser of a command leaves such a word alone as well.
With a sign it looks like a negative number, and without one it does not begin with a dash.

## What is proved

* `readBaseTen_toDigits`, `readAnyBase_toDigits`: a number is read from its digits, with either reader.
* `readDecimal_toString`, `readLiteral_toString`: an integer that can be written is read again.
* `markWord_toString`: it is an operand of every command that takes no switches.
-/

namespace ChunkMachine

namespace Text

/-! ### Digits -/

theorem range_of_isDigit {c : Char} (h : c.isDigit = true) : '0' ≤ c ∧ c ≤ '9' := by
  simpa [Char.isDigit, Char.le_def] using h

/-- A digit of ASCII is one among the digits of all scripts. -/
theorem digit_of_isDigit {c : Char} (h : c.isDigit = true) : isDigit c = true := by
  have hlt : c.toNat < 128 := Nat.lt_of_le_of_lt (range_of_isDigit h).2 (by decide)
  exact ascii_forall (P := fun c => c.isDigit = true → isDigit c = true) (by decide +kernel) hlt h

theorem valueIn_of_isDigit {c : Char} (h : c.isDigit = true) : valueIn 10 c = some (c.toNat - 48) := by
  have hrange := range_of_isDigit h
  have hlt : c.toNat - 48 < 10 := by
    have hle : c.toNat ≤ 57 := hrange.2
    omega
  simp [valueIn, hrange, hlt]

theorem readDigits_of_isDigit {cs : List Char} (hne : cs ≠ []) (h : ∀ c ∈ cs, c.isDigit = true) :
    readDigits 10 cs = some (cs.map fun c => c.toNat - 48) := by
  induction cs with
  | nil => exact absurd rfl hne
  | cons c cs ih =>
    obtain ⟨hc, hcs⟩ := List.forall_mem_cons.1 h
    cases cs with
    | nil => simp [readDigits, valueIn_of_isDigit hc]
    | cons d ds =>
      have hd : d ≠ '_' := by
        rintro rfl
        exact absurd (hcs _ List.mem_cons_self) (by decide)
      rw [readDigits, ih (List.cons_ne_nil d ds) hcs, valueIn_of_isDigit hc]
      · rfl
      · simp
      · simp [hd]

theorem isDigit_toDigits {n : Nat} {c : Char} (h : c ∈ Nat.toDigits 10 n) : c.isDigit = true :=
  Nat.isDigit_of_mem_toDigits (by decide) (by decide) h

theorem toDigits_eq_cons (n : Nat) :
    ∃ c cs, Nat.toDigits 10 n = c :: cs ∧ ∀ d ∈ c :: cs, d.isDigit = true := by
  obtain ⟨c, cs, hdigits⟩ := List.exists_cons_of_ne_nil (Nat.toDigits_ne_nil (n := n) (b := 10))
  exact ⟨c, cs, hdigits, fun d hd => isDigit_toDigits (hdigits ▸ hd)⟩

theorem length_toDigits_le {n k : Nat} (hk : 0 < k) (h : n < Nat.pow 10 k) :
    (Nat.toDigits 10 n).length ≤ k :=
  (Nat.length_toDigits_le_iff (by decide) hk).2 h

theorem readBaseTen_toDigits {n : Nat} (h : n < Nat.pow 10 maxDecimalDigits) :
    readBaseTen (Nat.toDigits 10 n) = some n := by
  have hdigits := readDigits_of_isDigit (Nat.toDigits_ne_nil (n := n) (b := 10)) fun _ => isDigit_toDigits
  have hvalue : ofDigits 10 ((Nat.toDigits 10 n).map fun c => c.toNat - 48) = n := by
    rw [ofDigits, List.foldl_map]
    exact Nat.ofDigitChars_ten_toDigits
  have hlength : (Nat.toDigits 10 n).length ≤ maxDecimalDigits :=
    length_toDigits_le (by decide) h
  simp [readBaseTen, hdigits, hvalue, hlength]

/-- The digits of a number do not begin with a zero. -/
theorem toDigits_head {n : Nat} (hn : 0 < n) : ∃ c cs, Nat.toDigits 10 n = c :: cs ∧ c ≠ '0' := by
  induction n using Nat.strongRecOn with
  | ind n ih =>
    rw [Nat.toDigits_eq_if (by decide)]
    split
    · rename_i hlt
      refine ⟨n.digitChar, [], rfl, ?_⟩
      have hall : ∀ m < 10, 0 < m → m.digitChar ≠ '0' := by decide
      exact hall n hlt hn
    · obtain ⟨c, cs, hdigits, hc⟩ := ih (n / 10) (by omega) (by omega)
      exact ⟨c, _, by rw [hdigits, List.cons_append], hc⟩

theorem readAnyBase_toDigits {n : Nat} (h : n < Nat.pow 10 maxDecimalDigits) :
    readAnyBase (Nat.toDigits 10 n) = some n := by
  rcases Nat.eq_zero_or_pos n with rfl | hn
  · rfl
  · obtain ⟨c, cs, hdigits, hc⟩ := toDigits_head hn
    have hread := readBaseTen_toDigits h
    rw [hdigits] at hread ⊢
    rwa [readAnyBase]
    simp [hc]

/-! ### Integers -/

section Signed

variable {cs : List Char} (h : ∀ c ∈ cs, c = '-' ∨ c.isDigit = true)

include h

theorem mapM_plainForm_of_digits : cs.mapM plainForm = some cs := by
  refine mapM_plainForm fun c hc => ?_
  rcases h c hc with rfl | hdigit
  · decide
  · have hle : c.toNat ≤ 57 := (range_of_isDigit hdigit).2
    omega

/-- There is no white space around digits, with a dash before them or without. -/
theorem trimmed_of_digits :
    ((cs.dropWhile isNumberSpace).reverse.dropWhile isNumberSpace).reverse = cs := by
  have hspace : ∀ c ∈ cs, ¬ isNumberSpace c = true := by
    intro c hc
    rcases h c hc with rfl | hdigit
    · decide
    · have hge : 48 ≤ c.toNat := (range_of_isDigit hdigit).1
      have hblank : c ≠ ' ' := by
        rintro rfl
        exact absurd hge (by decide)
      simp only [isNumberSpace, beq_eq_false_iff_ne.2 hblank, Bool.false_or, Bool.and_eq_true,
        decide_eq_true_iff]
      omega
  have hfront : cs.dropWhile isNumberSpace = cs :=
    List.dropWhile_eq_self_iff.2 fun hl => hspace _ (List.getElem_mem hl)
  have hend : cs.reverse.dropWhile isNumberSpace = cs.reverse :=
    List.dropWhile_eq_self_iff.2 fun hl => hspace _ (List.mem_reverse.1 (List.getElem_mem hl))
  rw [hfront, hend, List.reverse_reverse]

end Signed

/-- Whatever reads the digits of a number reads the integer that is written with them. -/
theorem readSigned_toString {read : List Char → Option Nat} {i : Int}
    (h : read (Nat.toDigits 10 i.natAbs) = some i.natAbs) : readSigned read (toString i) = some i := by
  rcases Document.toList_toString i with ⟨htext, hi⟩ | ⟨htext, hi⟩
  · obtain ⟨c, cs, hdigits, hall⟩ := toDigits_eq_cons i.natAbs
    have hc : c.isDigit = true := hall c List.mem_cons_self
    have hall' : ∀ d ∈ c :: cs, d = '-' ∨ d.isDigit = true := fun d hd => .inr (hall d hd)
    rw [hdigits] at h htext
    rw [readSigned, htext, mapM_plainForm_of_digits hall']
    simp only [Option.bind_eq_bind, Option.bind_some, trimmed_of_digits hall']
    -- a digit is no sign
    split
    · rename_i heq
      cases heq
      cases hc
    · rename_i heq
      cases heq
      cases hc
    · rw [h]
      exact congrArg some hi.symm
  · have hall : ∀ d ∈ '-' :: Nat.toDigits 10 i.natAbs, d = '-' ∨ d.isDigit = true := fun d hd =>
      (List.mem_cons.1 hd).imp_right isDigit_toDigits
    rw [readSigned, htext, mapM_plainForm_of_digits hall]
    simp only [Option.bind_eq_bind, Option.bind_some, trimmed_of_digits hall, h]
    exact congrArg some hi.symm

/-- **An integer that can be written is read again.** -/
theorem readDecimal_toString {i : Int} (h : writable i = true) : readDecimal (toString i) = some i :=
  readSigned_toString (readBaseTen_toDigits (of_decide_eq_true h))

theorem readLiteral_toString {i : Int} (h : writable i = true) : readLiteral (toString i) = some i :=
  readSigned_toString (readAnyBase_toDigits (of_decide_eq_true h))

end Text

/-! ### Operands -/

namespace Options

/-- An integer is an operand wherever no switch is expected, with a sign or without. -/
theorem markWord_toString {s : Spec} (hs : s.spellings = []) (i : Int) :
    markWord s (toString i) = .ok .operand := by
  have hnone (P : String × Switch → Prop) : ∀ x ∈ s.spellings, P x := by
    rw [hs]
    exact List.forall_mem_nil P
  obtain ⟨c, cs, hdigits, hall⟩ := Text.toDigits_eq_cons i.natAbs
  have hdash : c ≠ '-' := by
    rintro rfl
    exact absurd (hall _ List.mem_cons_self) (by decide)
  rcases Document.toList_toString i with ⟨htext, -⟩ | ⟨htext, -⟩
  · rw [hdigits] at htext
    refine markWord_of_undashed (hnone _) ?_
    rw [Text.begins, htext]
    simp [List.isPrefixOf, hdash.symm]
  · rw [hdigits] at htext
    have hsign : c ≠ '=' := by
      rintro rfl
      exact absurd (hall _ List.mem_cons_self) (by decide)
    have hnumber : isNegativeNumber (toString i) = true := by
      have hend : (c :: cs).getLast? ≠ some '\n' := fun hlast =>
        absurd (hall _ (List.mem_of_getLast? hlast)) (by decide)
      have htake : (c :: cs).takeWhile Text.isDigit = c :: cs :=
        List.takeWhile_eq_self_iff.2 fun d hd => Text.digit_of_isDigit (hall d hd)
      have hdrop : (c :: cs).dropWhile Text.isDigit = [] :=
        List.dropWhile_eq_nil_iff.2 fun d hd => Text.digit_of_isDigit (hall d hd)
      rw [isNegativeNumber, htext]
      simp only [if_neg hend, htake, hdrop]
      rfl
    rw [markWord_of_second htext hdash hsign (hnone _), hnumber]
    rfl

end Options

end ChunkMachine
