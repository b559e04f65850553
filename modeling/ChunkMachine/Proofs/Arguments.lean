import ChunkMachine.Options

/-!
# Specs that never ask for help

Parsing words can end in a complaint, in values or in a request for the help of the command. The last is
an end of its own: a command that gives its help leaves the debugger. It arises in one place, where a
switch that shows the help is applied. So a spec without such a switch never gives it, whatever the
words are (`parse_ne_help`).

The proof follows a word through the stages: the switches that it is recognised as are switches of the
spec, what is made of a hit are switches of the spec, and no other stage asks for help. `Plain` says
both of a stage at once, that it does not ask for help and what holds of its value.
-/

namespace ChunkMachine.Options

/-- The result is no request for help, and its value, if there is one, has the property. -/
def Plain {α : Type} (Q : α → Prop) : Except Refusal α → Prop
  | .ok a => Q a
  | .error refusal => refusal ≠ .help

/-! ### Putting stages together -/

theorem Plain.bind {α β : Type} {P : α → Prop} {Q : β → Prop} {x : Except Refusal α}
    {f : α → Except Refusal β} (hx : Plain P x) (hf : ∀ a, P a → Plain Q (f a)) :
    Plain Q (x >>= f) := by
  cases x with
  | error refusal => exact hx
  | ok a => exact hf a hx

theorem Plain.map {α β : Type} {P : α → Prop} {Q : β → Prop} {x : Except Refusal α} {f : α → β}
    (hx : Plain P x) (hf : ∀ a, P a → Q (f a)) : Plain Q (x.map f) := by
  cases x with
  | error refusal => exact hx
  | ok a => exact hf a hx

theorem Plain.of_eq_ok {α : Type} {Q : α → Prop} {x : Except Refusal α} {a : α} (hx : Plain Q x)
    (h : x = .ok a) : Q a := by
  rw [h] at hx
  exact hx

theorem Plain.of_eq_error {α : Type} {Q : α → Prop} {x : Except Refusal α} {refusal : Refusal}
    (hx : Plain Q x) (h : x = .error refusal) : refusal ≠ .help := by
  rw [h] at hx
  exact hx

theorem Plain.ne_help {α : Type} {Q : α → Prop} {x : Except Refusal α} (hx : Plain Q x) :
    x ≠ .error .help := by
  intro h
  exact hx.of_eq_error h rfl

theorem plain_foldlM {α β : Type} {f : β → α → Except Refusal β} {l : List α}
    (hf : ∀ b, ∀ a ∈ l, Plain (fun _ => True) (f b a)) :
    ∀ b : β, Plain (fun _ => True) (l.foldlM f b) := by
  induction l with
  | nil => intro b; trivial
  | cons a l ih =>
    intro b
    rw [List.foldlM_cons]
    refine (hf b a List.mem_cons_self).bind fun b' _ => ?_
    exact ih (fun b a ha => hf b a (List.mem_cons_of_mem _ ha)) b'

/-! ### Recognised switches -/

/-- No switch of the spec shows the help. -/
def Spec.Silent (s : Spec) : Prop := ∀ switch ∈ s.switches, switch.effect ≠ .showHelp

instance (s : Spec) : Decidable s.Silent :=
  inferInstanceAs (Decidable (∀ switch ∈ s.switches, switch.effect ≠ .showHelp))

/-- A switch that was recognised is one of the spec. -/
def Mark.Of (s : Spec) : Mark → Prop
  | .hit h => h.switch ∈ s.switches
  | _ => True

section Stages

variable (s : Spec)

theorem mem_switches_of_mem_spellings {spelling : String} {switch : Switch}
    (h : (spelling, switch) ∈ s.spellings) : switch ∈ s.switches := by
  obtain ⟨switch', hmem, hpair⟩ := List.mem_flatMap.1 h
  obtain ⟨_, -, hpair⟩ := List.mem_map.1 hpair
  cases hpair
  exact hmem

theorem mem_switches_of_find? {spelling : String} {switch : Switch}
    (h : s.find? spelling = some switch) : switch ∈ s.switches := by
  obtain ⟨before, after, hsplit, -⟩ := List.lookup_eq_some_iff.1 h
  have hmem : (spelling, switch) ∈ s.spellings := by
    rw [hsplit]
    simp
  exact mem_switches_of_mem_spellings s hmem

theorem switch_of_mem_candidates {word : String} {h : Hit} (hh : h ∈ candidates s word) :
    h.switch ∈ s.switches := by
  unfold candidates at hh
  split at hh
  · simp only at hh
    split at hh
    · obtain ⟨⟨spelling, switch⟩, hmem, rfl⟩ := List.mem_map.1 hh
      exact mem_switches_of_mem_spellings s (List.mem_filter.1 hmem).1
    · cases hh
  · obtain ⟨⟨spelling, switch⟩, hmem, hhit⟩ := List.mem_filterMap.1 hh
    have hswitch := mem_switches_of_mem_spellings s hmem
    simp only at hhit
    split at hhit
    · cases hhit
      exact hswitch
    · split at hhit
      · cases hhit
        exact hswitch
      · cases hhit

theorem markDashed_plain (word : String) : Plain (Mark.Of s) (markDashed s word) := by
  unfold markDashed
  simp only
  split
  · rename_i switch _ hfind
    exact mem_switches_of_find? s hfind
  · split
    · rename_i h hcandidates
      exact switch_of_mem_candidates s (hcandidates ▸ List.mem_singleton_self h)
    · split <;> trivial
    · simp [Plain]

theorem markWord_plain (word : String) : Plain (Mark.Of s) (markWord s word) := by
  unfold markWord
  split
  · rename_i switch hfind
    exact mem_switches_of_find? s hfind
  · split
    · exact markDashed_plain s word
    · trivial

theorem mark_plain (words : List String) : Plain (∀ x ∈ ·, x.2.Of s) (mark s words) := by
  induction words with
  | nil => intro x hx; cases hx
  | cons word words ih =>
    rw [mark]
    split
    · intro x hx
      rcases List.mem_cons.1 hx with rfl | hx
      · trivial
      · obtain ⟨_, -, rfl⟩ := List.mem_map.1 hx
        trivial
    · refine (markWord_plain s word).bind fun m hm => ih.bind fun rest hrest => ?_
      intro x hx
      rcases List.mem_cons.1 hx with rfl | hx
      · exact hm
      · exact hrest x hx

/-! ### What is made of a hit -/

/-- The switches that were taken are switches of the spec. -/
def Taken.Of (t : Taken) : Prop := ∀ given ∈ t.switches, given.1 ∈ s.switches

theorem takeNext_plain (next : Option String) {switch : Switch} (h : switch ∈ s.switches) :
    Plain (Taken.Of s) (takeNext next switch) := by
  unfold takeNext
  split
  · split
    · intro given hgiven
      rw [List.mem_singleton.1 hgiven]
      exact h
    · simp [Plain, complaint]
  · intro given hgiven
    rw [List.mem_singleton.1 hgiven]
    exact h

theorem takeValue_plain (next : Option String) (value : List Char) :
    ∀ {switch : Switch} {short : Bool}, switch ∈ s.switches →
      Plain (Taken.Of s) (takeValue s next switch short value) := by
  induction value with
  | nil =>
    intro switch short h
    rw [takeValue]
    split
    · intro given hgiven
      rw [List.mem_singleton.1 hgiven]
      exact h
    · simp [Plain, ignoredValue, complaint]
  | cons c rest ih =>
    intro switch short h
    rw [takeValue]
    split
    · intro given hgiven
      rw [List.mem_singleton.1 hgiven]
      exact h
    · split
      · simp [Plain, ignoredValue, complaint]
      · split
        · simp [Plain, ignoredValue, complaint]
        · rename_i other hfind
          have hother := mem_switches_of_find? s hfind
          have hmore : ∀ t : Taken, t.Of s →
              Taken.Of s { t with switches := (switch, "") :: t.switches } := by
            intro t ht given hgiven
            rcases List.mem_cons.1 hgiven with rfl | hgiven
            · exact h
            · exact ht given hgiven
          cases rest with
          | nil => exact (takeNext_plain s next hother).map hmore
          | cons d value => exact (ih hother).map hmore

theorem takeHit_plain (next : Option String) {h : Hit} (hh : h.switch ∈ s.switches) :
    Plain (Taken.Of s) (takeHit s next h) := by
  unfold takeHit
  split
  · exact takeNext_plain s next hh
  · exact takeValue_plain s next _ hh

/-! ### Values -/

theorem read_plain (r : Reading) (name text : String) : Plain (fun _ => True) (r.read name text) := by
  cases r with
  | text => trivial
  | decimal =>
    simp only [Reading.read]
    cases Text.readDecimal text with
    | none => simp [Plain, complaint]
    | some i => trivial
  | literal =>
    simp only [Reading.read]
    cases Text.readLiteral text with
    | none => simp [Plain, complaint]
    | some i => trivial

theorem readOrDrop_plain (r : Reading) (name text : String) :
    Plain (fun _ => True) (r.readOrDrop name text) := by
  unfold Reading.readOrDrop
  split
  · trivial
  · exact read_plain r name text

theorem apply_plain (p : Parsed) {given : Switch × String} (h : given.1.effect ≠ .showHelp) :
    Plain (fun _ => True) (apply p given) := by
  unfold apply
  simp only
  split
  · rename_i heffect
    exact absurd heffect h
  · trivial
  · exact (readOrDrop_plain _ _ _).map fun _ _ => trivial
  · exact (readOrDrop_plain _ _ _).map fun _ _ => trivial

theorem applyOperand_plain (p : Parsed) (given : Operand × List String) :
    Plain (fun _ => True) (applyOperand p given) := by
  unfold applyOperand
  simp only
  split
  · trivial
  · split
    · trivial
    · exact (read_plain _ _ _).map fun _ _ => trivial

/-! ### Words that follow -/

theorem mem_of_mem_spanDashes {xs : List (String × Mark)} {x : String × Mark}
    (h : x ∈ (spanDashes xs).2) : x ∈ xs :=
  (List.dropWhile_suffix _).subset h

/-- What follows the words of an operand was there before. -/
theorem mem_of_mem_take {a : Arity} {xs rest : List (String × Mark)} {words : List String}
    (h : a.take xs = some (words, rest)) {x : String × Mark} (hx : x ∈ rest) : x ∈ xs := by
  unfold Arity.take at h
  simp only at h
  split at h
  · cases h
    cases hx
  · cases h
  · rename_i word rest' _ hspan
    cases h
    refine mem_of_mem_spanDashes ?_
    rw [hspan]
    exact List.mem_cons_of_mem _ (mem_of_mem_spanDashes hx)
  · cases h
    exact mem_of_mem_spanDashes hx
  · cases h

/-- What follows the words that were handed out was there before. -/
theorem mem_of_mem_handOut (os : List Operand) :
    ∀ {xs : List (String × Mark)} {x : String × Mark}, x ∈ (handOut os xs).2.2 → x ∈ xs := by
  induction os with
  | nil => intro xs x hx; exact hx
  | cons o os ih =>
    intro xs x hx
    rw [handOut] at hx
    split at hx
    · exact hx
    · rename_i words rest htake
      exact mem_of_mem_take htake (ih hx)

/-! ### Parsing -/

theorem parseFrom_plain (hs : s.Silent) (p : Parsed) (waiting : List Operand)
    (xs : List (String × Mark)) (hxs : ∀ x ∈ xs, x.2.Of s) :
    Plain (fun _ => True) (parseFrom s p waiting xs) := by
  have htaken : ∀ {t : Taken} (p : Parsed), t.Of s →
      Plain (fun _ => True) (t.switches.foldlM apply p) := fun p ht =>
    plain_foldlM (fun _ given hgiven => apply_plain _ (hs _ (ht given hgiven))) p
  have hgiven : ∀ (l : List (Operand × List String)) (p : Parsed),
      Plain (fun _ => True) (l.foldlM applyOperand p) := fun l p =>
    plain_foldlM (fun _ given _ => applyOperand_plain _ given) p
  fun_induction parseFrom s p waiting xs with
  | case1 => trivial
  | case2 p waiting word h rest refusal htake =>
    exact (takeHit_plain s _ (hxs _ List.mem_cons_self)).of_eq_error htake
  | case3 p waiting word h rest taken htake refusal hfold =>
    have hof := (takeHit_plain s _ (hxs _ List.mem_cons_self)).of_eq_ok htake
    exact (htaken p hof).of_eq_error hfold
  | case4 p waiting word h rest taken htake p' hfold ih =>
    refine ih fun x hx => hxs x (List.mem_cons_of_mem _ ?_)
    split at hx
    · exact List.mem_of_mem_tail hx
    · exact hx
  | case5 p waiting word rest ih => exact ih fun x hx => hxs x (List.mem_cons_of_mem _ hx)
  | case6 p waiting word mark rest _ _ given still after hout refusal hfold =>
    exact (hgiven given p).of_eq_error hfold
  | case7 p waiting word mark rest _ _ given still after hout p' hfold hle ih =>
    refine ih fun x hx => hxs x (mem_of_mem_handOut waiting ?_)
    rw [hout]
    exact hx
  | case8 p waiting word mark rest _ _ given still after hout p' hfold hle ih =>
    exact ih fun x hx => hxs x (List.mem_cons_of_mem _ hx)

theorem parseKnown_plain (hs : s.Silent) (words : List String) :
    Plain (fun _ => True) (parseKnown s words) := by
  unfold parseKnown
  refine (mark_plain s words).bind fun xs hxs => ?_
  refine (parseFrom_plain s hs {} s.operands xs hxs).bind fun result _ => ?_
  simp only
  split
  · trivial
  · simp [Plain]

theorem parse_plain (hs : s.Silent) (words : List String) :
    Plain (fun _ => True) (parse s words) := by
  unfold parse
  refine (parseKnown_plain s hs words).bind fun p _ => ?_
  split
  · trivial
  · simp [Plain, unrecognized]

end Stages

/-- **A spec without a switch for the help never gives it.** -/
theorem parse_ne_help {s : Spec} (hs : s.Silent) (words : List String) :
    parse s words ≠ .error .help :=
  (parse_plain s hs words).ne_help

end ChunkMachine.Options
