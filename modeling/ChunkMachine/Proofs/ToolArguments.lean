import ChunkMachine.Tool.Debug
import ChunkMachine.Tool.Run
import Mathlib.Data.List.Basic

/-!
# A program and a seed among the arguments

The runner and the debugger read their arguments with one parser, but from two specs: the runner has no
operands and does not let switches be cut short, the debugger has an operand, switches of one letter and
more switches that a word could be taken for. A program and a seed are read from both in the same way.

A seed is the delicate part. The word after `--seed` is its value only if it is taken as an operand
(`value_of_parseKnown`). A negative number begins with a dash, and whether such a word is an operand
depends on the switches that the spec has. But what is read as a number has a digit after the dash, and no
switch of either tool has one there (`markWord_of_second`). So the words that the runner accepts as seeds
are accepted by the debugger too.

## What is proved

* `markWord_of_undashed`, `markWord_of_second`: what a word is that cannot be taken for a switch.
* `second_of_readDecimal`: an integer that begins with a dash goes on with a digit.
* `parseFrom_switch`, `value_of_parseKnown`: a switch takes the word after it as its value, if that word
  is an operand, and is refused otherwise.
* `Run.request_of_seed`: what it means that the runner accepts a seed.
* `Debug.parse_of_seed`: the debugger reads the same program and the same seed.
-/

namespace ChunkMachine

namespace Text

/-! ### Integers that begin with a dash -/

/-- Digits begin with a digit. -/
theorem readDigits_head {base : Nat} {cs : List Char} {digits : List Nat}
    (h : readDigits base cs = some digits) : ∃ c rest, cs = c :: rest ∧ (valueIn base c).isSome := by
  unfold readDigits at h
  split at h
  · cases h
  · obtain ⟨v, hv, -⟩ := Option.map_eq_some_iff.1 h
    exact ⟨_, _, rfl, by rw [hv]; rfl⟩
  · obtain ⟨v, hv, -⟩ := Option.bind_eq_some_iff.1 h
    exact ⟨_, _, rfl, by rw [hv]; rfl⟩
  · obtain ⟨v, hv, -⟩ := Option.bind_eq_some_iff.1 h
    exact ⟨_, _, rfl, by rw [hv]; rfl⟩

/-- A text without the white space after it is a beginning of the text. -/
theorem trimmed_append (p : Char → Bool) (cs : List Char) :
    ∃ spaces, cs = (cs.reverse.dropWhile p).reverse ++ spaces := by
  refine ⟨(cs.reverse.takeWhile p).reverse, ?_⟩
  rw [← List.reverse_append, List.takeWhile_append_dropWhile, List.reverse_reverse]

/-- White space after a dash does not reach it. -/
theorem trimmed_dash (cs : List Char) :
    (('-' :: cs).reverse.dropWhile isNumberSpace).reverse =
      '-' :: (cs.reverse.dropWhile isNumberSpace).reverse := by
  have hdash : ['-'].dropWhile isNumberSpace = ['-'] := rfl
  rw [List.reverse_cons, List.dropWhile_append]
  split
  · rename_i hempty
    rw [hdash, List.isEmpty_iff.1 hempty]
    rfl
  · simp

/-- **An integer that begins with a dash goes on with a digit**, which may be one of another script. -/
theorem second_of_readDecimal {text : String} {n : Int} (h : readDecimal text = some n)
    {cs : List Char} (hdash : text.toList = '-' :: cs) :
    ∃ c rest d, cs = c :: rest ∧ plainForm c = some d ∧ (valueIn 10 d).isSome := by
  unfold readDecimal readSigned at h
  obtain ⟨plain, hplain, h⟩ := Option.bind_eq_some_iff.1 h
  rw [hdash, List.mapM_cons] at hplain
  obtain ⟨first, hfirst, hplain⟩ := Option.bind_eq_some_iff.1 hplain
  obtain ⟨ds, hds, hplain⟩ := Option.bind_eq_some_iff.1 hplain
  cases hfirst
  cases hplain
  have hspaces : ('-' :: ds).dropWhile isNumberSpace = '-' :: ds := rfl
  simp only [hspaces, trimmed_dash] at h
  obtain ⟨i, hi, -⟩ := Option.map_eq_some_iff.1 h
  obtain ⟨m, hm, -⟩ := Option.bind_eq_some_iff.1 hi
  obtain ⟨digits, hdigits, -⟩ := Option.bind_eq_some_iff.1 hm
  obtain ⟨d, more, hd, hvalue⟩ := readDigits_head hdigits
  obtain ⟨spaces, hall⟩ := trimmed_append isNumberSpace ds
  rw [hd] at hall
  cases cs with
  | nil =>
    rw [List.mapM_nil] at hds
    cases hds
    cases hall
  | cons c rest =>
    rw [List.mapM_cons] at hds
    obtain ⟨d', hd', hds⟩ := Option.bind_eq_some_iff.1 hds
    obtain ⟨ds', -, hds⟩ := Option.bind_eq_some_iff.1 hds
    cases hds
    cases hall
    exact ⟨c, rest, d, rfl, hd', hvalue⟩

end Text

namespace Options

/-! ### Words that are no switches -/

section Words

variable {s : Spec}

theorem find?_eq_none {word : String} (h : ∀ x ∈ s.spellings, x.1 ≠ word) : s.find? word = none := by
  rw [Spec.find?, List.lookup_eq_none_iff]
  intro x hx
  simpa using fun heq => h x hx heq.symm

/-- Every spelling of the spec begins with a dash. -/
def Spec.Dashed (s : Spec) : Prop := ∀ x ∈ s.spellings, Text.begins "-" x.1 = true

instance (s : Spec) : Decidable s.Dashed :=
  inferInstanceAs (Decidable (∀ x ∈ s.spellings, Text.begins "-" x.1 = true))

/-- A word that does not begin with a dash is an operand. -/
theorem markWord_of_undashed (hs : s.Dashed) {word : String} (h : Text.begins "-" word = false) :
    markWord s word = .ok .operand := by
  have hfind : s.find? word = none := by
    refine find?_eq_none fun x hx heq => ?_
    have hdash := hs x hx
    rw [heq, h] at hdash
    cases hdash
  simp [markWord, hfind, h]

theorem second_cutAtSign {word : String} {c : Char} {cs : List Char}
    (hword : word.toList = '-' :: c :: cs) (hsign : c ≠ '=') :
    (cutAtSign word).1.toList[1]? = some c := by
  unfold cutAtSign
  simp only
  split
  · simp [hword, hsign]
  · simp [hword]

/-- A word whose second character is that of no spelling is an operand if it looks like a negative
number or has a space in it. -/
theorem markWord_of_second {word : String} {c : Char} {cs : List Char}
    (hword : word.toList = '-' :: c :: cs) (hdash : c ≠ '-') (hsign : c ≠ '=')
    (hs : ∀ x ∈ s.spellings, x.1.toList[1]? ≠ some c) :
    markWord s word =
      if isNegativeNumber word || word.toList.contains ' ' then .ok .operand else .ok .unknown := by
  have hfind : ∀ {front : String}, front.toList[1]? = some c → s.find? front = none := by
    intro front hfront
    refine find?_eq_none fun x hx heq => hs x hx ?_
    rw [heq, hfront]
  have hbegins : Text.begins "-" word = true := by simp [Text.begins, hword]
  have hlong : Text.begins "--" word = false := by
    simp [Text.begins, hword, List.isPrefixOf, Ne.symm hdash]
  have hcandidates : candidates s word = [] := by
    rw [candidates, if_neg (by rw [hlong]; simp), List.filterMap_eq_nil_iff]
    rintro ⟨spelling, switch⟩ hx
    have hspelling := hs _ hx
    have hshort : spelling ≠ String.ofList (word.toList.take 2) := by
      rintro rfl
      simp [hword] at hspelling
    have hcut : Text.begins word spelling = false := by
      rw [Bool.eq_false_iff]
      intro hcut
      obtain ⟨t, rfl⟩ := Text.begins_iff.1 hcut
      simp [hword] at hspelling
    simp only [if_neg hshort, hcut]
    rfl
  have hone : word ≠ "-" := by
    rintro rfl
    cases hword
  have hspelled : s.find? word = none := hfind (by rw [hword]; rfl)
  have hmark : markWord s word = markDashed s word := by
    simp [markWord, hspelled, hbegins, hone]
  rw [hmark, markDashed]
  simp only [hfind (second_cutAtSign hword hsign), hcandidates]
  cases (cutAtSign word).2 <;> rfl

end Words

/-! ### Stages of the parser -/

theorem mark_cons {s : Spec} {word : String} {words : List String} {m : Mark}
    {xs : List (String × Mark)} (hword : word ≠ "--") (hm : markWord s word = .ok m)
    (hxs : mark s words = .ok xs) : mark s (word :: words) = .ok ((word, m) :: xs) := by
  rw [mark, if_neg hword, hm, hxs]
  rfl

theorem mark_cons_eq_ok {s : Spec} {word : String} {words : List String} {xs : List (String × Mark)}
    (hword : word ≠ "--") (h : mark s (word :: words) = .ok xs) :
    ∃ m rest, markWord s word = .ok m ∧ mark s words = .ok rest ∧ xs = (word, m) :: rest := by
  rw [mark, if_neg hword] at h
  cases hm : markWord s word with
  | error refusal =>
    rw [hm] at h
    cases h
  | ok m =>
    cases hrest : mark s words with
    | error refusal =>
      rw [hm, hrest] at h
      cases h
    | ok rest =>
      rw [hm, hrest] at h
      cases h
      exact ⟨m, rest, rfl, rfl, rfl⟩

theorem exists_of_isOk {ε α : Type} {x : Except ε α} (h : x.isOk = true) : ∃ a, x = .ok a := by
  cases x with
  | ok a => exact ⟨a, rfl⟩
  | error fault => cases h

theorem parseKnown_eq_ok {s : Spec} {words : List String} {p : Parsed}
    (h : parseKnown s words = .ok p) :
    ∃ xs still, mark s words = .ok xs ∧ parseFrom s {} s.operands xs = .ok (p, still) := by
  unfold parseKnown at h
  cases hmark : mark s words with
  | error refusal =>
    rw [hmark] at h
    cases h
  | ok xs =>
    cases hparse : parseFrom s {} s.operands xs with
    | error refusal =>
      simp only [hmark, bind, Except.bind, hparse] at h
      cases h
    | ok result =>
      obtain ⟨p', still⟩ := result
      simp only [hmark, bind, Except.bind, hparse] at h
      split at h
      · cases h
        exact ⟨xs, still, rfl, hparse⟩
      · cases h

/-- Words that leave no operand open are parsed. -/
theorem parse_of_parseFrom {s : Spec} {words : List String} {xs : List (String × Mark)} {p : Parsed}
    (hmark : mark s words = .ok xs) (hparse : parseFrom s {} s.operands xs = .ok (p, []))
    (hextras : p.extras = []) : parse s words = .ok p := by
  simp [parse, parseKnown, hmark, bind, Except.bind, hparse, hextras, pure, Except.pure]

/-! ### Switches with values -/

section Switches

variable {s : Spec} {p p' : Parsed} {waiting : List Operand} {word value : String} {h : Hit}
  {rest : List (String × Mark)}

/-- A switch takes the word after it as its value. -/
theorem parseFrom_switch (hvalue : h.value = none) (htakes : h.switch.effect.takesValue = true)
    (happly : apply p (h.switch, value) = .ok p') :
    parseFrom s p waiting ((word, .hit h) :: (value, .operand) :: rest) =
      parseFrom s p' waiting rest := by
  rw [parseFrom]
  simp [takeHit, hvalue, takeNext, nextValue, htakes, happly]

/-- A switch refuses a value that it cannot read. -/
theorem parseFrom_switch_refused {refusal : Refusal} (hvalue : h.value = none)
    (htakes : h.switch.effect.takesValue = true)
    (happly : apply p (h.switch, value) = .error refusal) :
    parseFrom s p waiting ((word, .hit h) :: (value, .operand) :: rest) = .error refusal := by
  rw [parseFrom]
  simp [takeHit, hvalue, takeNext, nextValue, htakes, happly]

/-- A switch that needs a value is refused if the next word cannot be one. -/
theorem parseFrom_switch_alone (hvalue : h.value = none)
    (htakes : h.switch.effect.takesValue = true) (hnext : nextValue rest = none) :
    parseFrom s p waiting ((word, .hit h) :: rest) =
      .error (complaint h.switch.label "expected one argument") := by
  rw [parseFrom]
  simp [takeHit, hvalue, takeNext, hnext, htakes]

/-- An operand that no operand waits for is left over. -/
theorem parseFrom_leftover :
    parseFrom s p [] ((word, .operand) :: rest) = parseFrom s (p.leave word) [] rest := by
  have hlong : ¬ rest.length + 1 ≤ rest.length := Nat.not_succ_le_self _
  rw [parseFrom]
  · simp [handOut, pure, Except.pure, hlong]
  all_goals simp

/-- An operand that is waited for is noted. -/
theorem parseFrom_operand {o : Operand} (harity : o.arity ≠ .onward) (hreading : o.reading = .text)
    (hword : word ≠ "--") (hrest : spanDashes rest = ([], rest)) :
    parseFrom s p [o] ((word, .operand) :: rest) = parseFrom s (p.add o.name (.text word)) [] rest := by
  have hspan : spanDashes ((word, Mark.operand) :: rest) = ([], (word, .operand) :: rest) := by
    simp [spanDashes]
  have htake : o.arity.take ((word, .operand) :: rest) = some ([word], rest) := by
    cases ha : o.arity with
    | onward => exact absurd ha harity
    | one | optional => simp [Arity.take, hspan, hrest]
  have herase : [word].erase "--" = [word] := by simp [hword]
  have happly : applyOperand p (o, [word]) = .ok (p.add o.name (.text word)) := by
    cases ha : o.arity with
    | onward => exact absurd ha harity
    | one | optional =>
      simp only [applyOperand, ha, herase, hreading, Reading.read]
      rfl
  rw [parseFrom]
  · simp [handOut, htake, happly]
  all_goals simp

end Switches

/-- If a switch in front of a word is accepted, then the word is an operand. -/
theorem value_of_parseKnown {s : Spec} {word value : String} {words : List String} {h : Hit} {p : Parsed}
    (hword : word ≠ "--") (hmark : markWord s word = .ok (.hit h)) (hvalue : h.value = none)
    (htakes : h.switch.effect.takesValue = true) (hp : parseKnown s (word :: value :: words) = .ok p) :
    value ≠ "--" ∧ markWord s value = .ok .operand ∧ ∃ xs still, mark s words = .ok xs ∧
      parseFrom s {} s.operands ((word, .hit h) :: (value, .operand) :: xs) = .ok (p, still) := by
  obtain ⟨xs, still, hxs, hparse⟩ := parseKnown_eq_ok hp
  obtain ⟨m, rest, hm, hrest, rfl⟩ := mark_cons_eq_ok hword hxs
  rw [hmark] at hm
  cases hm
  have hdashes : value ≠ "--" := by
    rintro rfl
    rw [mark, if_pos rfl] at hrest
    cases hrest
    rw [parseFrom_switch_alone hvalue htakes rfl] at hparse
    cases hparse
  obtain ⟨m, last, hm, hlast, rfl⟩ := mark_cons_eq_ok hdashes hrest
  cases m with
  | operand => exact ⟨hdashes, hm, last, still, hlast, hparse⟩
  | dashes | unknown | hit =>
    rw [parseFrom_switch_alone hvalue htakes rfl] at hparse
    cases hparse

/-- A switch for integers reads one. -/
theorem apply_decimal {p : Parsed} {switch : Switch} {text : String}
    (hswitch : switch.effect = .store .decimal) (htext : text ≠ "--") :
    apply p (switch, text) =
      match Text.readDecimal text with
      | some n => .ok (p.add switch.key (.int n))
      | none => .error (complaint switch.label ("invalid int value: " ++ Text.quoted text)) := by
  unfold apply
  simp only [hswitch, Reading.readOrDrop, if_neg htext, Reading.read]
  cases Text.readDecimal text <;> rfl

/-- A switch for texts takes any. -/
theorem apply_text {p : Parsed} {switch : Switch} {text : String}
    (hswitch : switch.effect = .store .text ∨ switch.effect = .collect) (htext : text ≠ "--") :
    apply p (switch, text) = .ok (p.add switch.key (.text text)) := by
  unfold apply
  rcases hswitch with hswitch | hswitch <;>
    simp only [hswitch, Reading.readOrDrop, if_neg htext, Reading.read] <;> rfl

end Options

/-! ### Seeds -/

namespace Run

open Options

theorem parseKnown_of_seed {seed file : String} {p : Parsed} (hfile : Text.begins "-" file = false)
    (h : parseKnown spec ["--seed", seed, file] = .ok p) :
    seed ≠ "--" ∧ markWord spec seed = .ok .operand ∧ ∃ n, Text.readDecimal seed = some n ∧
      p = { values := [("seed", .int n)], extras := [file] } := by
  obtain ⟨seedHit, hhit, hvalue, heffect, hkey⟩ :
      ∃ h, markWord spec "--seed" = .ok (.hit h) ∧ h.value = none ∧
        h.switch.effect = .store .decimal ∧ h.switch.key = "seed" := ⟨_, rfl, rfl, rfl, rfl⟩
  have htakes : seedHit.switch.effect.takesValue = true := by rw [heffect]; rfl
  obtain ⟨hseed, hmark, xs, still, hxs, hparse⟩ :=
    value_of_parseKnown (by decide) hhit hvalue htakes h
  have hdashes : file ≠ "--" := by
    rintro rfl
    cases hfile
  rw [mark_cons hdashes (markWord_of_undashed (by decide) hfile) rfl] at hxs
  cases hxs
  refine ⟨hseed, hmark, ?_⟩
  cases hn : Text.readDecimal seed with
  | none =>
    rw [parseFrom_switch_refused hvalue htakes (by rw [apply_decimal heffect hseed, hn])] at hparse
    cases hparse
  | some n =>
    have hnone : spec.operands = [] := rfl
    rw [parseFrom_switch hvalue htakes (by rw [apply_decimal heffect hseed, hn]), hnone,
      parseFrom_leftover, parseFrom, hkey] at hparse
    cases hparse
    exact ⟨n, rfl, rfl⟩

/-- **What it means that the runner accepts a seed**: the word is taken as an operand, it is read as an
integer, and the rest is as if there were no seed. -/
theorem request_of_seed {seed file : String} {q : Request} (hfile : Text.begins "-" file = false)
    (h : request ["--seed", seed, file] = .ok q) :
    seed ≠ "--" ∧ markWord spec seed = .ok .operand ∧ ∃ n, Text.readDecimal seed = some n ∧
      q = { file := .ok file, reserved := [], trace := false, traceFile := none, seed := .number n,
            rank := .ok Level.warning.rank } := by
  unfold request at h
  split at h
  · cases h
  · cases h
  · rename_i p hparse
    obtain ⟨hseed, hmark, n, hn, rfl⟩ := parseKnown_of_seed hfile hparse
    refine ⟨hseed, hmark, n, hn, ?_⟩
    cases h
    simp only [filesAmong, reservedAmong, List.filter_cons, hfile]
    rfl

end Run

namespace Debug

open Options

/-- A word that the runner takes as a seed is no switch of the debugger. -/
theorem markWord_of_seed {seed : String} {n : Int} (hn : Text.readDecimal seed = some n)
    (h : markWord Run.spec seed = .ok .operand) : markWord spec seed = .ok .operand := by
  cases hdash : Text.begins "-" seed with
  | false => exact markWord_of_undashed (by decide) hdash
  | true =>
    obtain ⟨tail, htail⟩ := Text.begins_iff.1 hdash
    have hcs : seed.toList = '-' :: tail.toList := by simp [htail]
    obtain ⟨c, rest, d, hrest, hplain, hdigit⟩ := Text.second_of_readDecimal hn hcs
    rw [hrest] at hcs
    have hne : ∀ x, Text.plainForm x = some x → Text.valueIn 10 x = none → c ≠ x := by
      rintro x hself hnone rfl
      rw [hself] at hplain
      cases hplain
      rw [hnone] at hdigit
      cases hdigit
    -- the characters that stand after the dash of a switch are no digits
    have hsecond : ∀ {x : Option Char}, x ∈ [some '-', some 'h', some 'c'] → x ≠ some c := by
      rintro x hx rfl
      simp only [List.mem_cons, Option.some.injEq, List.not_mem_nil, or_false] at hx
      rcases hx with rfl | rfl | rfl <;> exact hne _ (by decide) (by decide) rfl
    have hrun : ∀ x ∈ Run.spec.spellings, x.1.toList[1]? ∈ [some '-', some 'h', some 'c'] := by decide
    have hdebug : ∀ x ∈ spec.spellings, x.1.toList[1]? ∈ [some '-', some 'h', some 'c'] := by decide
    have hdash' : c ≠ '-' := hne '-' (by decide) (by decide)
    have hsign : c ≠ '=' := hne '=' (by decide) (by decide)
    rw [markWord_of_second hcs hdash' hsign fun x hx => hsecond (hrun x hx)] at h
    rw [markWord_of_second hcs hdash' hsign fun x hx => hsecond (hdebug x hx)]
    exact h

/-- A word that the debugger accepts as the name of the input is no switch. -/
theorem markWord_of_input {input : String} {p : Parsed} (h : parse spec ["--input", input] = .ok p) :
    input ≠ "--" ∧ markWord spec input = .ok .operand := by
  have hknown : ∃ p', parseKnown spec ["--input", input] = .ok p' := by
    cases hparse : parseKnown spec ["--input", input] with
    | ok p' => exact ⟨p', rfl⟩
    | error refusal =>
      rw [parse, hparse] at h
      cases h
  obtain ⟨p', hp'⟩ := hknown
  obtain ⟨hdashes, hmark, -⟩ := value_of_parseKnown (by decide) rfl rfl rfl hp'
  exact ⟨hdashes, hmark⟩

/-- The values of the arguments with which the debugger runs a program. -/
def runValues (file input : String) (n : Int) : Parsed :=
  { values := [("program", .text file), ("seed", .int n), ("input", .text input),
      ("command", .text "continue")] }

/-- **The debugger reads the same program and the same seed as the runner.** -/
theorem parse_of_seed {file seed input : String} {n : Int} (hfile : Text.begins "-" file = false)
    (hseed : seed ≠ "--") (hmark : markWord spec seed = .ok .operand)
    (hn : Text.readDecimal seed = some n) (hinput : input ≠ "--")
    (hmark' : markWord spec input = .ok .operand) :
    parse spec [file, "--seed", seed, "--input", input, "-c", "continue"] =
      .ok (runValues file input n) := by
  have hdashes : file ≠ "--" := by
    rintro rfl
    cases hfile
  obtain ⟨seedHit, hseedHit, hseedValue, hseedEffect, hseedKey⟩ :
      ∃ h, markWord spec "--seed" = .ok (.hit h) ∧ h.value = none ∧
        h.switch.effect = .store .decimal ∧ h.switch.key = "seed" := ⟨_, rfl, rfl, rfl, rfl⟩
  obtain ⟨inputHit, hinputHit, hinputValue, hinputEffect, hinputKey⟩ :
      ∃ h, markWord spec "--input" = .ok (.hit h) ∧ h.value = none ∧
        h.switch.effect = .store .text ∧ h.switch.key = "input" := ⟨_, rfl, rfl, rfl, rfl⟩
  obtain ⟨commandHit, hcommandHit, hcommandValue, hcommandEffect, hcommandKey⟩ :
      ∃ h, markWord spec "-c" = .ok (.hit h) ∧ h.value = none ∧
        h.switch.effect = .collect ∧ h.switch.key = "command" := ⟨_, rfl, rfl, rfl, rfl⟩
  have hwords : mark spec [file, "--seed", seed, "--input", input, "-c", "continue"] =
      .ok [(file, .operand), ("--seed", .hit seedHit), (seed, .operand), ("--input", .hit inputHit),
        (input, .operand), ("-c", .hit commandHit), ("continue", .operand)] :=
    mark_cons hdashes (markWord_of_undashed (by decide) hfile) <| mark_cons (by decide) hseedHit <|
      mark_cons hseed hmark <| mark_cons (by decide) hinputHit <|
      mark_cons hinput hmark' <| mark_cons (by decide) hcommandHit rfl
  refine parse_of_parseFrom hwords ?_ rfl
  have hwaiting : spec.operands =
      [{ name := "program", arity := .optional, help := "XRF program to load at start-up" }] := rfl
  rw [hwaiting, parseFrom_operand (by simp) rfl hdashes (by simp [spanDashes]),
    parseFrom_switch hseedValue (by rw [hseedEffect]; rfl)
      (by rw [apply_decimal hseedEffect hseed, hn]),
    parseFrom_switch hinputValue (by rw [hinputEffect]; rfl)
      (apply_text (.inl hinputEffect) hinput),
    parseFrom_switch hcommandValue (by rw [hcommandEffect]; rfl)
      (apply_text (.inr hcommandEffect) (by decide)),
    parseFrom, hseedKey, hinputKey, hcommandKey]
  rfl

end Debug

end ChunkMachine
