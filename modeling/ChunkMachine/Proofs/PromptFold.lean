import ChunkMachine.Proofs.Interrupt
import ChunkMachine.Proofs.Persistence

/-!
# The prompt as a fold over its commands

The prompt takes lines one by one and carries the pieces of a command that is not complete from one line
to the next. What it does in the end can be said without these pieces. The lines that were typed before
the first interrupt or the end of the input fall into groups, each a number of lines that go on in the
next and one that does not (`Group`), and each group is one command. The commands are obeyed one after the
other, up to the first that leaves the prompt.

## What is proved

* `grouped_complete`: the groups are the lines in order; only lines at the end that would go on are left.
* `run_group`: the lines of a group are one command.
* `history_obeyAll`: the history of the prompt is that of the commands alone.
* `run_eq_fold`: the prompt obeys the commands of the groups.
-/

namespace ChunkMachine.Debugger

/-! ### Groups of lines -/

/-- The lines before the first interrupt or the end of the input. -/
def typed : List PromptEvent → List String
  | .line line :: events => line :: typed events
  | _ => []

/-- Does a command go on after the line? -/
def continues (line : String) : Bool := (Text.stripRight line).toList.getLast? = some '\\'

/-- A line that goes on without the backslash and the white space after it. -/
def piece (line : String) : String := String.ofList (Text.stripRight line).toList.dropLast

/-- The lines of a command: all but the last go on. -/
structure Group where
  continued : List String
  last : String
  continues_continued : ∀ line ∈ continued, continues line = true
  not_continues_last : continues last = false

namespace Group

/-- The lines in order. -/
def lines (g : Group) : List String := g.continued ++ [g.last]

/-- The command: a single line as it is, or else the pieces of the lines, joined by spaces. -/
def command (g : Group) : String :=
  if g.continued = [] then g.last
  else " ".intercalate (g.continued.map piece ++ [Text.stripRight g.last])

end Group

/-- Group lines. What is not complete at the end is left out. -/
def grouped : List String → List Group
  | [] => []
  | line :: lines =>
    if h : continues line = true then
      match grouped lines with
      | [] => []
      | g :: groups =>
        { g with
          continued := line :: g.continued
          continues_continued := List.forall_mem_cons.2 ⟨h, g.continues_continued⟩ } :: groups
    else ⟨[], line, by simp, by simpa using h⟩ :: grouped lines

/-- **Grouping loses nothing** but lines at the end of which each would go on. -/
theorem grouped_complete (lines : List String) :
    ∃ rest, lines = (grouped lines).flatMap Group.lines ++ rest ∧ ∀ line ∈ rest, continues line = true := by
  fun_induction grouped lines with
  | case1 => exact ⟨[], rfl, by simp⟩
  | case2 line lines h hnone ih =>
    obtain ⟨rest, hlines, hrest⟩ := ih
    rw [hnone] at hlines
    refine ⟨line :: lines, rfl, List.forall_mem_cons.2 ⟨h, ?_⟩⟩
    rw [hlines]
    exact hrest
  | case3 line lines h g groups hsome ih =>
    obtain ⟨rest, hlines, hrest⟩ := ih
    rw [hsome] at hlines
    refine ⟨rest, ?_, hrest⟩
    rw [hlines]
    simp [Group.lines]
  | case4 line lines h ih =>
    obtain ⟨rest, hlines, hrest⟩ := ih
    refine ⟨rest, ?_, hrest⟩
    rw [List.flatMap_cons, List.append_assoc, ← hlines]
    rfl

example : (grouped ["step\\ ", " 2 ", " info ", "stack\\"]).map Group.command = ["step  2", " info "] := by
  decide +kernel

/-- The events are the lines that were typed, and then nothing that counts. -/
theorem exists_events_eq (events : List PromptEvent) :
    ∃ tail, events = (typed events).map .line ++ tail ∧ typed tail = [] := by
  fun_induction typed events with
  | case1 line events ih =>
    obtain ⟨tail, hevents, htail⟩ := ih
    refine ⟨tail, ?_, htail⟩
    rw [List.map_cons, List.cons_append, ← hevents]
  | case2 events h =>
    refine ⟨events, rfl, ?_⟩
    rw [typed]
    exact h

/-! ### One command -/

/-- Does the prompt go on after a command that ended so? -/
def goesOn : Ended → Bool
  | .status _ | .escaped .interrupted => true
  | _ => false

namespace Prompt

/-- The reply to a command, once it is kept. -/
def reply (fuel : Nat) (w : Surroundings) (r : Registry) (p : Prompt) (command : String) : Reply :=
  let kept := (p.keep command).1
  dispatch fuel { w with files := kept.files } r kept.session command

/-- What is noted after a command that was interrupted. -/
def note (ended : Ended) : String := if ended = .escaped .interrupted then "interrupted\n" else ""

/-- The prompt with a command kept and then carried out. -/
def obeyed (fuel : Nat) (w : Surroundings) (r : Registry) (p : Prompt) (command : String) : Prompt :=
  let kept := (p.keep command).1
  let reply := p.reply fuel w r command
  let turn : Turn :=
    { output := reply.session.output.drop kept.session.output.length
      text := reply.text ++ note reply.ended
      log := (p.keep command).2 ++ reply.log }
  { kept with session := reply.session, turns := p.turns ++ [turn] }

/-- The prompt with commands kept and carried out one after the other. -/
def obeyAll (fuel : Nat) (w : Surroundings) (r : Registry) (p : Prompt) (commands : List String) : Prompt :=
  commands.foldl (obeyed fuel w r) p

section

variable (fuel : Nat) (w : Surroundings) (r : Registry)

/-- To enter a command is to obey it, where an interrupt is not passed on. -/
theorem enter_eq (p : Prompt) (command : String) :
    p.enter fuel w r command = (p.obeyed fuel w r command,
      if (p.reply fuel w r command).ended = .escaped .interrupted then .status 1
      else (p.reply fuel w r command).ended) := by
  have hreply : dispatch fuel { w with files := (p.keep command).1.files } r (p.keep command).1.session
      command = p.reply fuel w r command := rfl
  unfold enter obeyed Turn.ofReply
  simp only [hreply, keep_turns]
  rcases (p.reply fuel w r command).ended with code | code | escape | _
  · simp [note]
  · simp [note]
  · cases escape <;> simp [note]
  · simp [note]

/-! ### The lines of a command -/

theorem takeLine_of_continues {line : String} (h : continues line = true) (pieces : List String) :
    takeLine pieces line = (true, pieces ++ [piece line]) := by
  have hlast : (Text.stripRight line).toList.getLast? = some '\\' := by simpa [continues] using h
  rw [takeLine, if_pos hlast]
  rfl

theorem takeLine_of_not_continues {line : String} (h : continues line = false) (pieces : List String) :
    takeLine pieces line =
      (false, if pieces = [] then [] else pieces ++ [Text.stripRight line]) := by
  have hlast : ¬ (Text.stripRight line).toList.getLast? = some '\\' := by simpa [continues] using h
  rw [takeLine, if_neg hlast]
  cases pieces <;> simp

/-- Lines that go on are taken as pieces. -/
theorem run_continued (lines : List String) (h : ∀ line ∈ lines, continues line = true)
    (events : List PromptEvent) (p : Prompt) : ∀ pieces,
    run fuel w r pieces (lines.map .line ++ events) p =
      run fuel w r (pieces ++ lines.map piece) events p := by
  induction lines with
  | nil => intro pieces; simp
  | cons line lines ih =>
    intro pieces
    obtain ⟨hline, hlines⟩ := List.forall_mem_cons.1 h
    rw [List.map_cons, List.cons_append, run.eq_def]
    simp only [takeLine_of_continues hline]
    rw [ih hlines, List.map_cons, List.append_assoc, List.singleton_append]

/-- **The lines of a group are one command.** -/
theorem run_group (g : Group) (events : List PromptEvent) (p : Prompt) :
    run fuel w r [] (g.lines.map .line ++ events) p =
      if goesOn (p.reply fuel w r g.command).ended = true then
        run fuel w r [] events (p.obeyed fuel w r g.command)
      else (p.obeyed fuel w r g.command, (p.reply fuel w r g.command).ended) := by
  have hcommand : payload
      (if g.continued.map piece = [] then [] else g.continued.map piece ++ [Text.stripRight g.last]) g.last =
      g.command := by
    cases hcontinued : g.continued with
    | nil => simp [payload, Group.command, hcontinued]
    | cons line lines => simp [payload, Group.command, hcontinued]
  rw [Group.lines, List.map_append, List.append_assoc,
    run_continued fuel w r g.continued g.continues_continued, List.nil_append]
  rw [List.map_singleton, List.singleton_append, run.eq_def]
  simp only [takeLine_of_not_continues g.not_continues_last, hcommand, enter_eq]
  rcases (p.reply fuel w r g.command).ended with code | code | escape | _
  · simp [goesOn]
  · simp [goesOn]
  · cases escape <;> simp [goesOn]
  · simp [goesOn]

/-- Lines that all would go on come to nothing. -/
theorem run_unfinished {rest : List String} {tail : List PromptEvent}
    (hrest : ∀ line ∈ rest, continues line = true) (htail : typed tail = []) (p : Prompt) :
    run fuel w r [] (rest.map .line ++ tail) p = p.leave := by
  rw [run_continued fuel w r rest hrest]
  cases tail with
  | nil => rw [run.eq_def]
  | cons event tail =>
    cases event with
    | line line => simp [typed] at htail
    | interrupt => rw [run.eq_def]
    | endOfInput => rw [run.eq_def]

/-! ### All commands -/

theorem obeyAll_cons (p : Prompt) (command : String) (commands : List String) :
    p.obeyAll fuel w r (command :: commands) =
      (p.obeyed fuel w r command).obeyAll fuel w r commands := by
  simp only [obeyAll, List.foldl_cons]

theorem history_obeyed (p : Prompt) (command : String) :
    (p.obeyed fuel w r command).history = p.history.map (fun h => (h.append p.files command).1) ∧
    (p.obeyed fuel w r command).files =
      p.history.elim p.files (fun h => (h.append p.files command).2.1) := by
  simp only [obeyed]
  unfold keep
  cases hhistory : p.history with
  | none => simp [hhistory]
  | some h => simp

/-- **The history is that of the commands alone**, whatever they do. -/
theorem history_obeyAll (commands : List String) : ∀ p : Prompt,
    (p.obeyAll fuel w r commands).history = p.history.map (fun h => (h.appendAll p.files commands).1) ∧
    (p.obeyAll fuel w r commands).files =
      p.history.elim p.files (fun h => (h.appendAll p.files commands).2.1) := by
  induction commands with
  | nil =>
    intro p
    cases hhistory : p.history <;> simp [obeyAll, History.appendAll, hhistory]
  | cons command commands ih =>
    intro p
    obtain ⟨hhistory, hfiles⟩ := history_obeyed fuel w r p command
    obtain ⟨hhistory', hfiles'⟩ := ih (p.obeyed fuel w r command)
    rw [hhistory, hfiles] at hhistory' hfiles'
    rw [obeyAll_cons, hhistory', hfiles']
    cases p.history with
    | none => simp
    | some h => simp [History.appendAll_cons]

/-- The prompt obeys the first `k` commands and goes on after each of them. It is left with the result: if
there is no other command, as at the end of the input, or else by the next command, which does not go on. -/
def LeftAfter (p : Prompt) (commands : List String) (k : Nat) (result : Prompt × Ended) : Prop :=
  (∀ j < k, ∃ command, commands[j]? = some command ∧
    goesOn ((p.obeyAll fuel w r (commands.take j)).reply fuel w r command).ended = true) ∧
  (commands[k]? = none ∧ result = (p.obeyAll fuel w r commands).leave ∨
    ∃ command, commands[k]? = some command ∧
      goesOn ((p.obeyAll fuel w r (commands.take k)).reply fuel w r command).ended = false ∧
      result = (p.obeyAll fuel w r (commands.take (k + 1)),
        ((p.obeyAll fuel w r (commands.take k)).reply fuel w r command).ended))

variable {fuel w r}

theorem LeftAfter.cons {p : Prompt} {command : String} {commands : List String} {k : Nat}
    {result : Prompt × Ended} (hgoes : goesOn (p.reply fuel w r command).ended = true)
    (h : (p.obeyed fuel w r command).LeftAfter fuel w r commands k result) :
    p.LeftAfter fuel w r (command :: commands) (k + 1) result := by
  obtain ⟨hbefore, hend⟩ := h
  refine ⟨fun j hj => ?_, ?_⟩
  · cases j with
    | zero => exact ⟨command, rfl, hgoes⟩
    | succ j =>
      rw [List.getElem?_cons_succ, List.take_succ_cons, obeyAll_cons]
      exact hbefore j (Nat.lt_of_succ_lt_succ hj)
  · rw [List.getElem?_cons_succ, List.take_succ_cons, List.take_succ_cons, obeyAll_cons, obeyAll_cons,
      obeyAll_cons]
    exact hend

/-- The prompt obeys the commands of groups of lines. -/
theorem run_groups {rest : List String} {tail : List PromptEvent}
    (hrest : ∀ line ∈ rest, continues line = true) (htail : typed tail = []) (groups : List Group) :
    ∀ p : Prompt, ∃ k, p.LeftAfter fuel w r (groups.map Group.command) k
      (run fuel w r [] ((groups.flatMap Group.lines ++ rest).map .line ++ tail) p) := by
  induction groups with
  | nil =>
    intro p
    refine ⟨0, by simp, .inl ⟨rfl, ?_⟩⟩
    exact run_unfinished fuel w r hrest htail p
  | cons g groups ih =>
    intro p
    have hrun := run_group fuel w r g ((groups.flatMap Group.lines ++ rest).map .line ++ tail) p
    rw [← List.append_assoc, ← List.map_append, ← List.append_assoc, ← List.flatMap_cons] at hrun
    rw [hrun, List.map_cons]
    cases hgoes : goesOn (p.reply fuel w r g.command).ended with
    | false => exact ⟨0, by simp, .inr ⟨g.command, rfl, hgoes, rfl⟩⟩
    | true =>
      obtain ⟨k, hk⟩ := ih (p.obeyed fuel w r g.command)
      exact ⟨k + 1, hk.cons hgoes⟩

variable (fuel w r)

/-- **The prompt is a fold over its commands.** Take the lines that were typed before the first interrupt or
the end of the input, and group them so that a line whose visible text ends in a backslash goes on in the next
one; only lines at the end of which each would go on are in no group. Each group is a command: a line as it is,
or else the pieces joined by spaces. Then the prompt keeps each command in the history and carries it out,
once and in order, and goes on if the command returned or was interrupted. It leaves with status 0 after the
last command, or by the first command that ended in another way, and then keeps and carries out no other one.
The history and its file are what the commands alone would have made of them. -/
theorem run_eq_fold (p : Prompt) (events : List PromptEvent) :
    let groups := grouped (typed events)
    let commands := groups.map Group.command
    (∃ rest, typed events = groups.flatMap Group.lines ++ rest ∧ ∀ line ∈ rest, continues line = true) ∧
    (∃ k, p.LeftAfter fuel w r commands k (run fuel w r [] events p)) ∧
    ∀ j, (p.obeyAll fuel w r (commands.take j)).history =
        p.history.map (fun h => (h.appendAll p.files (commands.take j)).1) ∧
      (p.obeyAll fuel w r (commands.take j)).files =
        p.history.elim p.files (fun h => (h.appendAll p.files (commands.take j)).2.1) := by
  intro groups commands
  obtain ⟨rest, hlines, hrest⟩ := grouped_complete (typed events)
  obtain ⟨tail, hevents, htail⟩ := exists_events_eq events
  obtain ⟨k, hk⟩ := run_groups hrest htail groups p
  have hrun : (groups.flatMap Group.lines ++ rest).map .line ++ tail = events := by
    rw [← hlines, ← hevents]
  rw [hrun] at hk
  exact ⟨⟨rest, hlines, hrest⟩, ⟨k, hk⟩, fun j => history_obeyAll fuel w r (commands.take j) p⟩

end

end Prompt

end ChunkMachine.Debugger
