import ChunkMachine.Proofs.ToolArguments

/-!
# The arguments of the runner

The runner reads its arguments with the parser that all tools share, which knows operands, switches that
are cut short, switches of one letter and more. Of all this the runner uses little: it has four switches,
each with one spelling, and no operands. What it accepts can be said by a small grammar. The arguments are
cut into pieces (`Piece`), each a switch with what belongs to it or a word that is left over, up to a word
`--` after which everything is left over. Arguments of which this cannot be said are refused with one of
three complaints (`Complains`).

## What is proved

* `markWord_label`, `markWord_joined`, `markWord_value`, `markWord_unknown`: what each word is taken for.
* `parseKnown_of_reads`, `parseKnown_of_refuses`: the parser does what the grammar says.
* `reads_or_refuses`: the grammar has a say about all arguments.
-/

namespace ChunkMachine

namespace Options

/-! ### Values from two runs of words -/

namespace Parsed

/-- What was given by words and by words after them. -/
def join (p q : Parsed) : Parsed := { values := p.values ++ q.values, extras := p.extras ++ q.extras }

theorem join_empty (p : Parsed) : p.join {} = p := by simp [join]

theorem empty_join (p : Parsed) : Parsed.join {} p = p := by simp [join]

theorem join_assoc (p q r : Parsed) : (p.join q).join r = p.join (q.join r) := by simp [join]

theorem add_eq_join (p : Parsed) (key : String) (value : Value) :
    p.add key value = p.join { values := [(key, value)] } := by simp [join, add]

theorem leave_eq_join (p : Parsed) (word : String) : p.leave word = p.join { extras := [word] } := by
  simp [join, leave]

end Parsed

/-! ### Switches with a value in the same word -/

theorem cutAtSign_append {front : String} (h : '=' ∉ front.toList) (value : String) :
    cutAtSign (front ++ "=" ++ value) = (front, some value) := by
  have hfront : ∀ c ∈ front.toList, (c != '=') = true := by
    intro c hc
    rw [bne_iff_ne]
    rintro rfl
    exact h hc
  have hdrop : (front ++ "=" ++ value).toList.dropWhile (· != '=') = '=' :: value.toList := by
    rw [String.toList_append, String.toList_append, List.append_assoc, List.dropWhile_append_of_pos hfront]
    rfl
  have htake : (front ++ "=" ++ value).toList.takeWhile (· != '=') = front.toList := by
    rw [String.toList_append, String.toList_append, List.append_assoc, List.takeWhile_append_of_pos hfront]
    simp
  simp only [cutAtSign, hdrop, htake, String.ofList_toList]

theorem eq_of_cutAtSign {word front value : String} (h : cutAtSign word = (front, some value)) :
    word = front ++ "=" ++ value := by
  unfold cutAtSign at h
  simp only at h
  split at h
  · rename_i c rest hrest
    have hsign : c = '=' := by
      have hhead := List.head?_dropWhile_not (· != '=') word.toList
      rw [hrest] at hhead
      simpa using hhead
    obtain ⟨rfl, hvalue⟩ := Prod.mk.inj h
    obtain rfl := Option.some.inj hvalue
    have hall := List.takeWhile_append_dropWhile (p := (· != '=')) (l := word.toList)
    rw [hrest, hsign] at hall
    apply String.toList_inj.1
    simpa using hall.symm
  · cases h

section Switches

variable {s : Spec} {p p' : Parsed} {waiting : List Operand} {word text : String} {h : Hit}
  {rest : List (String × Mark)}

theorem takeHit_joined (hvalue : h.value = some text) (htakes : h.switch.effect.takesValue = true)
    (next : Option String) : takeHit s next h = .ok { switches := [(h.switch, text)] } := by
  simp only [takeHit, hvalue]
  cases htext : text.toList with
  | nil =>
    obtain rfl : text = "" := String.toList_inj.1 htext
    simp [takeValue, htakes]
  | cons c rest =>
    have hback : String.ofList (c :: rest) = text := by rw [← htext, String.ofList_toList]
    simp [takeValue, htakes, hback]

/-- A switch takes the value that is written in its own word. -/
theorem parseFrom_joined (hvalue : h.value = some text) (htakes : h.switch.effect.takesValue = true)
    (happly : apply p (h.switch, text) = .ok p') :
    parseFrom s p waiting ((word, .hit h) :: rest) = parseFrom s p' waiting rest := by
  rw [parseFrom]
  simp [takeHit_joined hvalue htakes, happly]

theorem parseFrom_joined_refused {refusal : Refusal} (hvalue : h.value = some text)
    (htakes : h.switch.effect.takesValue = true) (happly : apply p (h.switch, text) = .error refusal) :
    parseFrom s p waiting ((word, .hit h) :: rest) = .error refusal := by
  rw [parseFrom]
  simp [takeHit_joined hvalue htakes, happly]

/-- A long switch that takes no value refuses one. -/
theorem parseFrom_joined_unused (hvalue : h.value = some text)
    (htakes : h.switch.effect.takesValue = false) (hlong : Text.begins "--" h.spelling = true) :
    parseFrom s p waiting ((word, .hit h) :: rest) =
      .error (complaint h.switch.label ("ignored explicit argument " ++ Text.quoted text)) := by
  have htake : takeHit s (nextValue rest) h = .error (ignoredValue h.switch text.toList) := by
    simp only [takeHit, hvalue, hlong]
    cases htext : text.toList with
    | nil => simp [takeValue, htakes]
    | cons c rest => simp [takeValue, htakes]
  rw [parseFrom]
  simp [htake, ignoredValue]

/-- A switch that takes no value is noted. -/
theorem parseFrom_flag (hvalue : h.value = none) (heffect : h.switch.effect = .turnOn) :
    parseFrom s p waiting ((word, .hit h) :: rest) = parseFrom s (p.add h.switch.key .on) waiting rest := by
  have happly : apply p (h.switch, "") = .ok (p.add h.switch.key .on) := by simp only [apply, heffect]
  rw [parseFrom]
  simp [takeHit, hvalue, takeNext, heffect, Effect.takesValue, happly]

theorem parseFrom_unknown :
    parseFrom s p waiting ((word, .unknown) :: rest) = parseFrom s (p.leave word) waiting rest := by
  rw [parseFrom]

theorem parseFrom_dashes :
    parseFrom s p [] ((word, .dashes) :: rest) = parseFrom s (p.leave word) [] rest := by
  have hlong : ¬ rest.length + 1 ≤ rest.length := Nat.not_succ_le_self _
  rw [parseFrom]
  · simp [handOut, pure, Except.pure, hlong]
  all_goals simp

/-- After the word `--` everything is left over. -/
theorem parseFrom_leftovers (words : List String) : ∀ p : Parsed,
    parseFrom s p [] (words.map (·, .operand)) = .ok (p.join { extras := words }, []) := by
  induction words with
  | nil =>
    intro p
    rw [List.map_nil, parseFrom]
    simp [Parsed.join]
  | cons word words ih =>
    intro p
    rw [List.map_cons, parseFrom_leftover, ih, Parsed.leave_eq_join, Parsed.join_assoc]
    rfl

theorem apply_blank {switch : Switch} (htakes : switch.effect.takesValue = true) :
    apply p (switch, "--") = .ok (p.add switch.key .blank) := by
  unfold apply
  cases heffect : switch.effect with
  | turnOn | showHelp =>
    rw [heffect] at htakes
    cases htakes
  | store reading => simp [heffect, Reading.readOrDrop, Except.map]
  | collect => simp [heffect, Reading.readOrDrop, Except.map]

end Switches

end Options

namespace Run

open Options

/-! ### The grammar -/

/-- The word is no switch of the runner, neither as it stands nor with a value. -/
def Foreign (word : String) : Prop :=
  ∀ switch ∈ spec.switches, word ≠ switch.label ∧ ∀ text, word ≠ switch.label ++ "=" ++ text

/-- The word can be the value of the switch before it. A word that begins with a dash cannot, unless it is
a single dash or looks like a negative number or has a space in it. -/
def IsValue (word : String) : Prop :=
  word ≠ "--" ∧ Foreign word ∧ (Text.begins "-" word = true →
    word = "-" ∨ isNegativeNumber word = true ∨ ' ' ∈ word.toList)

/-- The switch takes the text for a value. -/
inductive Accepts : Switch → String → Value → Prop where
  | text {switch : Switch} {text : String} :
    switch.effect = .store .text → Accepts switch text (.text text)
  | number {switch : Switch} {text : String} {n : Int} :
    switch.effect = .store .decimal → Text.readDecimal text = some n → Accepts switch text (.int n)

/-- Words that make up one piece of the arguments, and what they give. -/
inductive Piece : List String → Parsed → Prop where
  /-- A switch that takes no value. -/
  | flag {switch : Switch} : switch ∈ spec.switches → switch.effect = .turnOn →
    Piece [switch.label] { values := [(switch.key, .on)] }
  /-- A switch and its value in the next word. -/
  | apart {switch : Switch} {text : String} {value : Value} : switch ∈ spec.switches → IsValue text →
    Accepts switch text value → Piece [switch.label, text] { values := [(switch.key, value)] }
  /-- A switch and its value in one word. -/
  | joined {switch : Switch} {text : String} {value : Value} : switch ∈ spec.switches → text ≠ "--" →
    Accepts switch text value →
    Piece [switch.label ++ "=" ++ text] { values := [(switch.key, value)] }
  /-- A switch whose value is dropped. -/
  | dropped {switch : Switch} : switch ∈ spec.switches → switch.effect.takesValue = true →
    Piece [switch.label ++ "=" ++ "--"] { values := [(switch.key, .blank)] }
  /-- A word that is left over. -/
  | other {word : String} : word ≠ "--" → Foreign word → Piece [word] { extras := [word] }

/-- The arguments are well formed, and give some values and words that are left over. -/
inductive Reads : List String → Parsed → Prop where
  | nil : Reads [] {}
  | dashes (words : List String) : Reads ("--" :: words) { extras := "--" :: words }
  | piece {front words : List String} {p q : Parsed} : Piece front p → Reads words q →
    Reads (front ++ words) (p.join q)

/-- The words begin with something that is complained about. -/
inductive Complains : List String → String → Prop where
  | missing {switch : Switch} {words : List String} : switch ∈ spec.switches →
    switch.effect.takesValue = true → (∀ word ∈ words.head?, ¬ IsValue word) →
    Complains (switch.label :: words) ("argument " ++ switch.label ++ ": expected one argument")
  | unreadable {switch : Switch} {text : String} {words : List String} : switch ∈ spec.switches →
    switch.effect = .store .decimal → IsValue text → Text.readDecimal text = none →
    Complains (switch.label :: text :: words)
      ("argument " ++ switch.label ++ ": invalid int value: " ++ Text.quoted text)
  | unreadableJoined {switch : Switch} {text : String} {words : List String} : switch ∈ spec.switches →
    switch.effect = .store .decimal → text ≠ "--" → Text.readDecimal text = none →
    Complains ((switch.label ++ "=" ++ text) :: words)
      ("argument " ++ switch.label ++ ": invalid int value: " ++ Text.quoted text)
  | unused {switch : Switch} (text : String) (words : List String) : switch ∈ spec.switches →
    switch.effect = .turnOn →
    Complains ((switch.label ++ "=" ++ text) :: words)
      ("argument " ++ switch.label ++ ": ignored explicit argument " ++ Text.quoted text)

/-- The arguments are not well formed: after some pieces there is something that is complained about. -/
inductive Refuses : List String → String → Prop where
  | here {words : List String} {message : String} : Complains words message → Refuses words message
  | later {front words : List String} {p : Parsed} {message : String} : Piece front p →
    Refuses words message → Refuses (front ++ words) message

/-! ### What each word is -/

section Words

variable {switch : Switch} {word : String}

theorem find?_label : ∀ switch ∈ spec.switches, spec.find? switch.label = some switch := by decide

theorem begins_label : ∀ switch ∈ spec.switches, Text.begins "--" switch.label = true := by decide

theorem label_ne_dashes : ∀ switch ∈ spec.switches, switch.label ≠ "--" := by decide

theorem sign_not_mem_label : ∀ switch ∈ spec.switches, '=' ∉ switch.label.toList := by decide

/-- What is spelled is the label of a switch. -/
theorem mem_spellings : ∀ x ∈ spec.spellings, x.2 ∈ spec.switches ∧ x.1 = x.2.label := by decide

theorem find?_eq_some (h : spec.find? word = some switch) :
    switch ∈ spec.switches ∧ word = switch.label := by
  obtain ⟨before, after, hspellings, -⟩ := List.lookup_eq_some_iff.1 h
  exact mem_spellings (word, switch) (by rw [hspellings]; simp)

theorem markWord_label (h : switch ∈ spec.switches) :
    markWord spec switch.label = .ok (.hit ⟨switch, switch.label, none⟩) := by
  simp only [markWord, find?_label switch h]

theorem markWord_joined (h : switch ∈ spec.switches) (text : String) :
    markWord spec (switch.label ++ "=" ++ text) = .ok (.hit ⟨switch, switch.label, some text⟩) := by
  have hnone : spec.find? (switch.label ++ "=" ++ text) = none := by
    refine find?_eq_none fun x hx heq => ?_
    obtain ⟨hswitch, hlabel⟩ := mem_spellings x hx
    refine sign_not_mem_label x.2 hswitch ?_
    rw [← hlabel, heq]
    simp
  obtain ⟨tail, htail⟩ := Text.begins_iff.1 (begins_label switch h)
  have hdash : Text.begins "-" (switch.label ++ "=" ++ text) = true := by
    rw [Text.begins_iff]
    refine ⟨"-" ++ tail ++ "=" ++ text, ?_⟩
    rw [htail, ← String.append_assoc, ← String.append_assoc, ← String.append_assoc]
    rfl
  have hone : (switch.label ++ "=" ++ text != "-") = true := by
    rw [bne_iff_ne]
    intro heq
    have hsign := congrArg (fun t => '=' ∈ t.toList) heq
    simp at hsign
  simp only [markWord, hnone, hdash, hone, Bool.and_self, if_true, markDashed,
    cutAtSign_append (sign_not_mem_label switch h), find?_label switch h]

/-- No word is taken for a switch that is cut short: all switches have two dashes, and with two dashes they
must be written out. -/
theorem candidates_eq_nil (hdash : Text.begins "-" word = true) (hone : word ≠ "-") :
    candidates spec word = [] := by
  obtain ⟨tail, rfl⟩ := Text.begins_iff.1 hdash
  unfold candidates
  split
  · rfl
  · rename_i hlong
    obtain ⟨c, cs, htail⟩ : ∃ c cs, tail.toList = c :: cs := by
      cases htail : tail.toList with
      | nil =>
        obtain rfl : tail = "" := String.toList_inj.1 htail
        exact absurd rfl hone
      | cons c cs => exact ⟨c, cs, rfl⟩
    have hword : ("-" ++ tail).toList = '-' :: c :: cs := by simp [htail]
    have hc : c ≠ '-' := by
      rintro rfl
      exact hlong (by simp [Text.begins, htail])
    rw [List.filterMap_eq_nil_iff]
    rintro ⟨spelling, switch⟩ hx
    obtain ⟨hswitch, hlabel⟩ := mem_spellings _ hx
    obtain ⟨rest, hrest⟩ := Text.begins_iff.1 (begins_label switch hswitch)
    have hspelling : spelling.toList = '-' :: '-' :: rest.toList := by
      rw [show spelling = switch.label from hlabel, hrest]
      simp
    have hshort : spelling ≠ String.ofList (("-" ++ tail).toList.take 2) := by
      intro heq
      have hsecond := congrArg (fun t => t.toList[1]?) heq
      simp [hspelling, hword] at hsecond
      exact hc hsecond.symm
    have hcut : Text.begins ("-" ++ tail) spelling = false := by
      rw [Bool.eq_false_iff]
      intro hcut
      obtain ⟨more, hmore⟩ := Text.begins_iff.1 hcut
      have hsecond := congrArg (fun t => t.toList[1]?) hmore
      simp [hspelling, htail] at hsecond
      exact hc hsecond.symm
    simp only [if_neg hshort, hcut, Bool.false_eq_true, if_false]

theorem find?_of_foreign (h : Foreign word) : spec.find? word = none := by
  cases hfind : spec.find? word with
  | none => rfl
  | some switch =>
    obtain ⟨hswitch, hlabel⟩ := find?_eq_some hfind
    exact absurd hlabel (h switch hswitch).1

theorem markDashed_of_foreign (h : Foreign word) (hdash : Text.begins "-" word = true) (hone : word ≠ "-") :
    markDashed spec word =
      if isNegativeNumber word || word.toList.contains ' ' then .ok .operand else .ok .unknown := by
  unfold markDashed
  rw [candidates_eq_nil hdash hone]
  rcases hcut : cutAtSign word with ⟨front, _ | text⟩
  · rfl
  · have hnone : spec.find? front = none := by
      cases hfind : spec.find? front with
      | none => rfl
      | some switch =>
        obtain ⟨hswitch, rfl⟩ := find?_eq_some hfind
        exact absurd (eq_of_cutAtSign hcut) ((h switch hswitch).2 text)
    simp only [hnone]

theorem markWord_value (h : IsValue word) : markWord spec word = .ok .operand := by
  obtain ⟨-, hforeign, hvalue⟩ := h
  simp only [markWord, find?_of_foreign hforeign]
  split
  · rename_i hdashed
    rw [Bool.and_eq_true, bne_iff_ne] at hdashed
    obtain ⟨hdash, hone⟩ := hdashed
    rw [markDashed_of_foreign hforeign hdash hone, if_pos]
    rcases hvalue hdash with hsame | hnegative | hspace
    · exact absurd hsame hone
    · simp [hnegative]
    · simp [hspace]
  · rfl

theorem markWord_unknown (hdashes : word ≠ "--") (h : Foreign word) (hvalue : ¬ IsValue word) :
    markWord spec word = .ok .unknown := by
  have hplain : ¬ (Text.begins "-" word = true →
      word = "-" ∨ isNegativeNumber word = true ∨ ' ' ∈ word.toList) := fun hplain =>
    hvalue ⟨hdashes, h, hplain⟩
  push Not at hplain
  obtain ⟨hdash, hone, hnegative, hspace⟩ := hplain
  have hnot : ¬ (isNegativeNumber word || word.toList.contains ' ') = true := by
    simp [hnegative, hspace]
  simp only [markWord, find?_of_foreign h, hdash, Bool.true_and, bne_iff_ne.2 hone, if_true]
  rw [markDashed_of_foreign h hdash hone, if_neg hnot]

/-- A word is a switch, a switch with a value, or neither. -/
theorem word_cases (word : String) :
    (∃ switch ∈ spec.switches, word = switch.label) ∨
    (∃ switch ∈ spec.switches, ∃ text, word = switch.label ++ "=" ++ text) ∨ Foreign word := by
  by_cases h : Foreign word
  · exact .inr (.inr h)
  · unfold Foreign at h
    push Not at h
    obtain ⟨switch, hswitch, h⟩ := h
    by_cases hlabel : word = switch.label
    · exact .inl ⟨switch, hswitch, hlabel⟩
    · exact .inr (.inl ⟨switch, hswitch, h hlabel⟩)

theorem joined_ne_dashes (switch : Switch) (text : String) : switch.label ++ "=" ++ text ≠ "--" := by
  intro heq
  have hsign := congrArg (fun t => '=' ∈ t.toList) heq
  simp at hsign

theorem exists_mark (words : List String) : ∃ xs, mark spec words = .ok xs := by
  induction words with
  | nil => exact ⟨[], rfl⟩
  | cons word words ih =>
    obtain ⟨xs, hxs⟩ := ih
    by_cases hdashes : word = "--"
    · rw [mark, if_pos hdashes]
      exact ⟨_, rfl⟩
    · obtain ⟨m, hm⟩ : ∃ m, markWord spec word = .ok m := by
        rcases word_cases word with ⟨switch, hswitch, rfl⟩ | ⟨switch, hswitch, text, rfl⟩ | hforeign
        · exact ⟨_, markWord_label hswitch⟩
        · exact ⟨_, markWord_joined hswitch text⟩
        · by_cases hvalue : IsValue word
          · exact ⟨_, markWord_value hvalue⟩
          · exact ⟨_, markWord_unknown hdashes hforeign hvalue⟩
      exact ⟨_, mark_cons hdashes hm hxs⟩

/-- A switch finds no value in words of which the first cannot be one. -/
theorem nextValue_of_mark {words : List String} {xs : List (String × Mark)}
    (hxs : mark spec words = .ok xs) (h : ∀ word ∈ words.head?, ¬ IsValue word) : nextValue xs = none := by
  cases words with
  | nil =>
    cases hxs
    rfl
  | cons word words =>
    have hvalue : ¬ IsValue word := h word rfl
    by_cases hdashes : word = "--"
    · rw [mark, if_pos hdashes] at hxs
      cases hxs
      rfl
    · obtain ⟨m, rest, hm, -, rfl⟩ := mark_cons_eq_ok hdashes hxs
      rcases word_cases word with ⟨switch, hswitch, rfl⟩ | ⟨switch, hswitch, text, rfl⟩ | hforeign
      · rw [markWord_label hswitch] at hm
        cases hm
        rfl
      · rw [markWord_joined hswitch text] at hm
        cases hm
        rfl
      · rw [markWord_unknown hdashes hforeign hvalue] at hm
        cases hm
        rfl

end Words

/-! ### The parser follows the grammar -/

theorem Accepts.takesValue {switch : Switch} {text : String} {value : Value}
    (h : Accepts switch text value) : switch.effect.takesValue = true := by
  cases h with
  | text heffect => rw [heffect]; rfl
  | number heffect hn => rw [heffect]; rfl

theorem Accepts.apply {switch : Switch} {text : String} {value : Value}
    (h : Accepts switch text value) (hdashes : text ≠ "--") (p : Parsed) :
    Options.apply p (switch, text) = .ok (p.add switch.key value) := by
  cases h with
  | text heffect => exact apply_text (.inl heffect) hdashes
  | number heffect hn => rw [apply_decimal heffect hdashes, hn]

/-- What the parser makes of words after what was given before. -/
def parseWords (before : Parsed) (words : List String) : Except Refusal (Parsed × List Operand) :=
  (mark spec words).bind (parseFrom spec before [])

theorem parseWords_of_mark {words : List String} {xs : List (String × Mark)}
    (h : mark spec words = .ok xs) (before : Parsed) :
    parseWords before words = parseFrom spec before [] xs := by
  rw [parseWords, h]
  rfl

/-- What a piece gives is added, and the parser goes on after it. -/
theorem Piece.parse {front : List String} {p : Parsed} (h : Piece front p) (words : List String)
    (before : Parsed) : parseWords before (front ++ words) = parseWords (before.join p) words := by
  obtain ⟨xs, hxs⟩ := exists_mark words
  rw [parseWords_of_mark hxs]
  cases h with
  | @flag switch hswitch heffect =>
    have hmark := mark_cons (label_ne_dashes switch hswitch) (markWord_label hswitch) hxs
    rw [List.singleton_append, parseWords_of_mark hmark, parseFrom_flag rfl heffect, Parsed.add_eq_join]
  | @apart switch text value hswitch hvalue haccepts =>
    have hmark := mark_cons (label_ne_dashes switch hswitch) (markWord_label hswitch)
      (mark_cons hvalue.1 (markWord_value hvalue) hxs)
    rw [List.cons_append, List.singleton_append, parseWords_of_mark hmark,
      parseFrom_switch rfl haccepts.takesValue (haccepts.apply hvalue.1 before), Parsed.add_eq_join]
  | @joined switch text value hswitch hdashes haccepts =>
    have hmark := mark_cons (joined_ne_dashes switch text) (markWord_joined hswitch text) hxs
    rw [List.singleton_append, parseWords_of_mark hmark,
      parseFrom_joined rfl haccepts.takesValue (haccepts.apply hdashes before), Parsed.add_eq_join]
  | @dropped switch hswitch htakes =>
    have hmark := mark_cons (joined_ne_dashes switch "--") (markWord_joined hswitch "--") hxs
    rw [List.singleton_append, parseWords_of_mark hmark, parseFrom_joined rfl htakes (apply_blank htakes),
      Parsed.add_eq_join]
  | @other word hdashes hforeign =>
    rw [List.singleton_append]
    by_cases hvalue : IsValue word
    · have hmark := mark_cons hdashes (markWord_value hvalue) hxs
      rw [parseWords_of_mark hmark, parseFrom_leftover, Parsed.leave_eq_join]
    · have hmark := mark_cons hdashes (markWord_unknown hdashes hforeign hvalue) hxs
      rw [parseWords_of_mark hmark, parseFrom_unknown, Parsed.leave_eq_join]

theorem Reads.parse {argv : List String} {p : Parsed} (h : Reads argv p) : ∀ before : Parsed,
    parseWords before argv = .ok (before.join p, []) := by
  induction h with
  | nil =>
    intro before
    rw [parseWords_of_mark rfl, parseFrom, Parsed.join_empty]
  | dashes words =>
    intro before
    have hmark : mark spec ("--" :: words) = .ok (("--", .dashes) :: words.map (·, .operand)) := by
      rw [mark, if_pos rfl]
    rw [parseWords_of_mark hmark, parseFrom_dashes, parseFrom_leftovers, Parsed.leave_eq_join,
      Parsed.join_assoc]
    rfl
  | @piece front words p q hpiece hrest ih =>
    intro before
    rw [hpiece.parse, ih, Parsed.join_assoc]

theorem complaint_append (name lead rest : String) :
    complaint name (lead ++ rest) = .usage ("argument " ++ name ++ (": " ++ lead) ++ rest) := by
  simp only [complaint, String.append_assoc]

theorem Complains.parse {words : List String} {message : String} (h : Complains words message)
    (before : Parsed) : parseWords before words = .error (.usage message) := by
  cases h with
  | @missing switch words hswitch htakes hnone =>
    obtain ⟨xs, hxs⟩ := exists_mark words
    have hmark := mark_cons (label_ne_dashes switch hswitch) (markWord_label hswitch) hxs
    have hmessage : ": " ++ "expected one argument" = ": expected one argument" := by decide
    rw [parseWords_of_mark hmark, parseFrom_switch_alone rfl htakes (nextValue_of_mark hxs hnone),
      complaint, String.append_assoc, hmessage]
  | @unreadable switch text words hswitch heffect hvalue hnone =>
    obtain ⟨xs, hxs⟩ := exists_mark words
    have hmark := mark_cons (label_ne_dashes switch hswitch) (markWord_label hswitch)
      (mark_cons hvalue.1 (markWord_value hvalue) hxs)
    rw [parseWords_of_mark hmark, parseFrom_switch_refused rfl (by rw [heffect]; rfl)
      (by rw [apply_decimal heffect hvalue.1, hnone]), complaint_append]
    rfl
  | @unreadableJoined switch text words hswitch heffect hdashes hnone =>
    obtain ⟨xs, hxs⟩ := exists_mark words
    have hmark := mark_cons (joined_ne_dashes switch text) (markWord_joined hswitch text) hxs
    rw [parseWords_of_mark hmark, parseFrom_joined_refused rfl (by rw [heffect]; rfl)
      (by rw [apply_decimal heffect hdashes, hnone]), complaint_append]
    rfl
  | @unused switch text words hswitch heffect =>
    obtain ⟨xs, hxs⟩ := exists_mark words
    have hmark := mark_cons (joined_ne_dashes switch text) (markWord_joined hswitch text) hxs
    have hlong : Text.begins "--" (Hit.mk switch switch.label (some text)).spelling = true :=
      begins_label switch hswitch
    rw [parseWords_of_mark hmark, parseFrom_joined_unused rfl (by rw [heffect]; rfl) hlong,
      complaint_append]
    rfl

theorem Refuses.parse {argv : List String} {message : String} (h : Refuses argv message) :
    ∀ before : Parsed, parseWords before argv = .error (.usage message) := by
  induction h with
  | here hcomplains => exact hcomplains.parse
  | later hpiece hrest ih =>
    intro before
    rw [hpiece.parse, ih]

/-- **Well-formed arguments are read as the grammar says.** -/
theorem parseKnown_of_reads {argv : List String} {p : Parsed} (h : Reads argv p) :
    parseKnown spec argv = .ok p := by
  obtain ⟨xs, hxs⟩ := exists_mark argv
  have hparse := h.parse {}
  have hoperands : spec.operands = [] := rfl
  rw [parseWords_of_mark hxs] at hparse
  simp [parseKnown, hxs, hoperands, hparse, bind, Except.bind, pure, Except.pure, Parsed.empty_join]

/-- **All others are refused as the grammar says.** -/
theorem parseKnown_of_refuses {argv : List String} {message : String} (h : Refuses argv message) :
    parseKnown spec argv = .error (.usage message) := by
  obtain ⟨xs, hxs⟩ := exists_mark argv
  have hparse := h.parse {}
  have hoperands : spec.operands = [] := rfl
  rw [parseWords_of_mark hxs] at hparse
  simp [parseKnown, hxs, hoperands, hparse, bind, Except.bind]

/-! ### All arguments -/

/-- A switch takes no value, or it takes a text or a number. -/
theorem effect_cases : ∀ switch ∈ spec.switches, switch.effect = .turnOn ∨
    switch.effect.takesValue = true ∧
      (switch.effect = .store .text ∨ switch.effect = .store .decimal) := by decide

/-- A switch that takes a value accepts a text, unless it is for numbers. -/
theorem accepts_or {switch : Switch} (text : String)
    (h : switch.effect = .store .text ∨ switch.effect = .store .decimal) :
    (∃ value, Accepts switch text value) ∨
      switch.effect = .store .decimal ∧ Text.readDecimal text = none := by
  rcases h with heffect | heffect
  · exact .inl ⟨_, .text heffect⟩
  · cases hn : Text.readDecimal text with
    | none => exact .inr ⟨heffect, rfl⟩
    | some n => exact .inl ⟨_, .number heffect hn⟩

/-- Words begin with a piece or with something that is complained about, unless they begin with `--`. -/
theorem piece_or_complains {word : String} (words : List String) (hdashes : word ≠ "--") :
    (∃ front rest p, Piece front p ∧ front ≠ [] ∧ word :: words = front ++ rest) ∨
      ∃ message, Complains (word :: words) message := by
  rcases word_cases word with ⟨switch, hswitch, rfl⟩ | ⟨switch, hswitch, text, rfl⟩ | hforeign
  · rcases effect_cases switch hswitch with heffect | ⟨htakes, heffect⟩
    · exact .inl ⟨_, words, _, .flag hswitch heffect, by simp, rfl⟩
    · by_cases hvalue : ∃ text rest, words = text :: rest ∧ IsValue text
      · obtain ⟨text, rest, rfl, hvalue⟩ := hvalue
        rcases accepts_or text heffect with ⟨value, haccepts⟩ | ⟨hdecimal, hnone⟩
        · exact .inl ⟨_, rest, _, .apart hswitch hvalue haccepts, by simp, rfl⟩
        · exact .inr ⟨_, .unreadable hswitch hdecimal hvalue hnone⟩
      · refine .inr ⟨_, .missing hswitch htakes fun text htext hvalue' => hvalue ?_⟩
        cases words with
        | nil => cases htext
        | cons first rest =>
          cases htext
          exact ⟨_, rest, rfl, hvalue'⟩
  · rcases effect_cases switch hswitch with heffect | ⟨htakes, heffect⟩
    · exact .inr ⟨_, .unused text words hswitch heffect⟩
    · by_cases hdropped : text = "--"
      · subst hdropped
        exact .inl ⟨_, words, _, .dropped hswitch htakes, by simp, rfl⟩
      · rcases accepts_or text heffect with ⟨value, haccepts⟩ | ⟨hdecimal, hnone⟩
        · exact .inl ⟨_, words, _, .joined hswitch hdropped haccepts, by simp, rfl⟩
        · exact .inr ⟨_, .unreadableJoined hswitch hdecimal hdropped hnone⟩
  · exact .inl ⟨_, words, _, .other hdashes hforeign, by simp, rfl⟩

/-- **Arguments are well formed, or there is a complaint about them.** -/
theorem reads_or_refuses (argv : List String) :
    (∃ p, Reads argv p) ∨ ∃ message, Refuses argv message := by
  -- a piece has one word or two, and so the induction is on the number of words that are left
  induction hlength : argv.length using Nat.strongRecOn generalizing argv with
  | ind n ih =>
    cases argv with
    | nil => exact .inl ⟨_, .nil⟩
    | cons word words =>
      by_cases hdashes : word = "--"
      · subst hdashes
        exact .inl ⟨_, .dashes words⟩
      · rcases piece_or_complains words hdashes with ⟨front, rest, p, hpiece, hfront, hwords⟩ |
          ⟨message, hcomplains⟩
        · rw [hwords] at hlength ⊢
          have hshorter : rest.length < n := by
            have hpos := List.length_pos_iff.2 hfront
            rw [List.length_append] at hlength
            omega
          rcases ih rest.length hshorter rest rfl with ⟨q, hq⟩ | ⟨message, hrefuses⟩
          · exact .inl ⟨_, .piece hpiece hq⟩
          · exact .inr ⟨_, .later hpiece hrefuses⟩
        · exact .inr ⟨_, .here hcomplains⟩

/-! ### Where the words come from -/

/-- The words that are left over and the texts among the values have only such characters. -/
structure MadeOf (q : Char → Prop) (p : Parsed) : Prop where
  extras : ∀ word ∈ p.extras, ∀ c ∈ word.toList, q c
  texts : ∀ key text, (key, Value.text text) ∈ p.values → ∀ c ∈ text.toList, q c

section Characters

variable {q : Char → Prop}

theorem Accepts.madeOf {switch : Switch} {key text : String} {value : Value} (h : Accepts switch text value)
    (htext : ∀ c ∈ text.toList, q c) : MadeOf q { values := [(key, value)] } := by
  refine ⟨by simp, fun key' text' hmem => ?_⟩
  cases h with
  | text heffect =>
    cases List.mem_singleton.1 hmem
    exact htext
  | number heffect hn => cases List.mem_singleton.1 hmem

theorem Piece.madeOf {front : List String} {p : Parsed} (h : Piece front p)
    (hfront : ∀ word ∈ front, ∀ c ∈ word.toList, q c) : MadeOf q p := by
  cases h with
  | flag hswitch heffect => exact ⟨by simp, by simp⟩
  | apart hswitch hvalue haccepts => exact haccepts.madeOf (hfront _ (by simp))
  | joined hswitch hdashes haccepts =>
    refine haccepts.madeOf fun c hc => hfront _ List.mem_cons_self c ?_
    simp [hc]
  | dropped hswitch htakes => exact ⟨by simp, by simp⟩
  | other hdashes hforeign => exact ⟨by simpa using hfront, by simp⟩

/-- **Nothing is given that the arguments do not have.** -/
theorem Reads.madeOf {argv : List String} {p : Parsed} (h : Reads argv p)
    (hargv : ∀ word ∈ argv, ∀ c ∈ word.toList, q c) : MadeOf q p := by
  induction h with
  | nil => exact ⟨by simp, by simp⟩
  | dashes words => exact ⟨hargv, by simp⟩
  | piece hpiece hrest ih =>
    obtain ⟨hfront, hwords⟩ := List.forall_mem_append.1 hargv
    obtain ⟨hextras, htexts⟩ := hpiece.madeOf hfront
    obtain ⟨hextras', htexts'⟩ := ih hwords
    refine ⟨List.forall_mem_append.2 ⟨hextras, hextras'⟩, fun key text hmem => ?_⟩
    rcases List.mem_append.1 hmem with hmem | hmem
    · exact htexts key text hmem
    · exact htexts' key text hmem

theorem MadeOf.of_text? {p : Parsed} {key text : String} (h : MadeOf q p)
    (htext : p.text? key = some text) : ∀ c ∈ text.toList, q c := by
  unfold Parsed.text? at htext
  split at htext
  · rename_i text' hlast
    cases htext
    obtain ⟨before, after, hvalues, -⟩ := List.lookup_eq_some_iff.1 hlast
    refine h.texts key text ?_
    rw [← List.mem_reverse, hvalues]
    simp
  · cases htext

end Characters

end Run

end ChunkMachine
