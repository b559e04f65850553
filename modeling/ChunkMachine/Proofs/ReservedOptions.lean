import ChunkMachine.Proofs.RunnerStatus

/-!
# Reserved options

Every word of the arguments that begins with a dash and is not one of the runner's switches is reserved: the
runner takes it out and goes on as if it were not there. It does not matter where the word stands, with one
exception. A switch whose value comes in the next word takes it from there, and a word that is put in between
is taken for the value or leaves the switch without one.

The parser sends such a word to the words that are left over by one of three ways: as an option that it does
not know, as an operand, or as what follows the word `--`. The grammar of the arguments knows only pieces, so
there a word that is put in is a piece more. From there on the run with the word and the run without it are
compared stage by stage. They differ in one line of the log.

## What is proved

* `Reads.insert`, `Refuses.insert`: what the grammar says about the arguments with a word put in.
* `runFile_noted`: two runs of a file that differ in what was logged before.
* `reserved_ignored`: a reserved word makes no difference but for the line in the log that tells of it.
-/

namespace ChunkMachine.Run

open Options

/-! ### A word is put in -/

/-- The last word is a switch that waits for the value in the next word. -/
inductive Waits : List String → Prop where
  | here {switch : Switch} : switch ∈ spec.switches → switch.effect.takesValue = true →
    Waits [switch.label]
  | later {front words : List String} {p : Parsed} : Piece front p → Waits words → Waits (front ++ words)

/-- A switch can wait only if it is the last word. -/
theorem Waits.getLast? {words : List String} (h : Waits words) :
    ∃ switch ∈ spec.switches, switch.effect.takesValue = true ∧ words.getLast? = some switch.label := by
  induction h with
  | @here switch hswitch htakes => exact ⟨switch, hswitch, htakes, rfl⟩
  | later hpiece hwords ih =>
    obtain ⟨switch, hswitch, htakes, hlast⟩ := ih
    refine ⟨switch, hswitch, htakes, ?_⟩
    rw [List.getLast?_append, hlast]
    rfl

section Insert

variable {u v front words : List String} {word message : String} {p : Parsed}

/-- Where no switch waits, no piece goes on. -/
theorem Piece.cut (h : Piece front p) (hwords : front ++ words = u ++ v) (hu : u ≠ [])
    (hwaits : ¬ Waits u) : ∃ rest, u = front ++ rest ∧ words = rest ++ v ∧ ¬ Waits rest := by
  have hlater : ∀ {rest}, u = front ++ rest → ¬ Waits rest := by
    rintro rest rfl hrest
    exact hwaits (.later h hrest)
  rcases List.append_eq_append_iff.1 hwords with ⟨rest, hrest, hv⟩ | ⟨gap, hfront, hgap⟩
  · exact ⟨rest, hrest, hv, hlater hrest⟩
  by_cases hnil : gap = []
  · subst hnil
    rw [List.append_nil] at hfront
    exact ⟨[], by rw [hfront, List.append_nil], hgap.symm, hlater (by rw [hfront, List.append_nil])⟩
  -- only a switch with its value in the next word has two words
  exfalso
  obtain ⟨first, before, rfl⟩ := List.exists_cons_of_ne_nil hu
  rw [List.cons_append] at hfront
  cases h with
  | @apart switch text value hswitch hvalue haccepts =>
    obtain ⟨rfl, hrest⟩ := List.cons.inj hfront
    cases before with
    | nil => exact hwaits (.here hswitch haccepts.takesValue)
    | cons second before => simp [hnil] at hrest
  | flag | joined | dropped | other => simp [hnil] at hfront

/-- **A word that is no switch is left over where it is put in**, and the rest is read as before. -/
theorem Reads.insert (hother : Piece [word] { extras := [word] }) {argv : List String}
    (h : Reads argv p) : ∀ {u}, argv = u ++ v → ¬ Waits u →
      ∃ before after, p.extras = before ++ after ∧
        Reads (u ++ [word] ++ v) ⟨p.values, before ++ [word] ++ after⟩ := by
  have hhere : ∀ {argv : List String} {p : Parsed}, Reads argv p →
      Reads ([] ++ [word] ++ argv) ⟨p.values, [] ++ [word] ++ p.extras⟩ := fun h => .piece hother h
  induction h with
  | nil =>
    rintro u hu -
    obtain ⟨rfl, rfl⟩ := List.append_eq_nil_iff.1 hu.symm
    exact ⟨[], _, rfl, hhere .nil⟩
  | dashes words =>
    rintro u hu -
    cases u with
    | nil =>
      obtain rfl : v = "--" :: words := hu.symm
      exact ⟨[], _, rfl, hhere (.dashes words)⟩
    | cons first u =>
      obtain ⟨rfl, rfl⟩ := List.cons.inj hu
      exact ⟨"--" :: u, v, rfl, .dashes (u ++ [word] ++ v)⟩
  | @piece front words p q hpiece hrest ih =>
    intro u hu hwaits
    by_cases hempty : u = []
    · subst hempty
      obtain rfl : v = front ++ words := hu.symm
      exact ⟨[], _, rfl, hhere (.piece hpiece hrest)⟩
    · obtain ⟨rest, rfl, rfl, hwaits'⟩ := hpiece.cut hu hempty hwaits
      obtain ⟨before, after, hextras, hreads⟩ := ih rfl hwaits'
      refine ⟨p.extras ++ before, after, by simp [Parsed.join, hextras], ?_⟩
      simpa [Parsed.join] using Reads.piece hpiece hreads

theorem Complains.insert {u v : List String} (h : Complains (u ++ v) message) (hu : u ≠ [])
    (hwaits : ¬ Waits u) : Complains (u ++ [word] ++ v) message := by
  obtain ⟨first, u, rfl⟩ := List.exists_cons_of_ne_nil hu
  generalize hwords : first :: u ++ v = all at h
  cases h with
  | @missing switch words hswitch htakes hnone =>
    obtain ⟨rfl, rfl⟩ := List.cons.inj hwords
    cases u with
    | nil => exact absurd (.here hswitch htakes) hwaits
    | cons second u => exact .missing hswitch htakes hnone
  | @unreadable switch text words hswitch heffect hvalue hnone =>
    obtain ⟨rfl, hrest⟩ := List.cons.inj hwords
    cases u with
    | nil => exact absurd (.here hswitch (by rw [heffect]; rfl)) hwaits
    | cons second u =>
      obtain ⟨rfl, rfl⟩ := List.cons.inj hrest
      exact .unreadable hswitch heffect hvalue hnone
  | unreadableJoined hswitch heffect hdashes hnone =>
    obtain ⟨rfl, rfl⟩ := List.cons.inj hwords
    exact .unreadableJoined hswitch heffect hdashes hnone
  | unused text words hswitch heffect =>
    obtain ⟨rfl, rfl⟩ := List.cons.inj hwords
    exact .unused text _ hswitch heffect

/-- **What is complained about is complained about with the word as well**, in the same words. -/
theorem Refuses.insert (hother : Piece [word] { extras := [word] }) {argv : List String}
    (h : Refuses argv message) : ∀ {u}, argv = u ++ v → ¬ Waits u →
      Refuses (u ++ [word] ++ v) message := by
  induction h with
  | @here words message hcomplains =>
    intro u hu hwaits
    by_cases hempty : u = []
    · subst hempty
      obtain rfl : v = words := hu.symm
      exact .later hother (.here hcomplains)
    · exact .here (Complains.insert (hu ▸ hcomplains) hempty hwaits)
  | @later front words p message hpiece hrest ih =>
    intro u hu hwaits
    by_cases hempty : u = []
    · subst hempty
      obtain rfl : v = front ++ words := hu.symm
      exact .later hother (.later hpiece hrest)
    · obtain ⟨rest, rfl, rfl, hwaits'⟩ := hpiece.cut hu hempty hwaits
      rw [List.append_assoc, List.append_assoc, ← List.append_assoc rest]
      exact .later hpiece (ih rfl hwaits')

end Insert

/-! ### Two runs -/

/-- The second list has some lines more in one place. -/
def Inserts (noted lines lines' : List String) : Prop :=
  ∃ before after, lines = before ++ after ∧ lines' = before ++ noted ++ after

theorem Inserts.append {noted lines lines' : List String} (h : Inserts noted lines lines')
    (more : List String) : Inserts noted (lines ++ more) (lines' ++ more) := by
  obtain ⟨before, after, rfl, rfl⟩ := h
  exact ⟨before, after ++ more, by simp, by simp⟩

/-- Two runs have come to the same, but the second has put some lines more on the error stream. -/
structure Progress.Noted (noted : List String) (p p' : Progress) : Prop where
  files : p'.files = p.files
  stdout : p'.stdout = p.stdout
  stderr : Inserts noted p.stderr p'.stderr

/-- Two runs have left the same behind, but for some lines more on the error stream. -/
structure ResultNoted (noted : List String) (r r' : ToolResult) : Prop where
  ended : r'.ended = r.ended
  stdout : r'.stdout = r.stdout
  files : r'.files = r.files
  stderr : ∃ lines lines', Inserts noted lines lines' ∧ r.stderr = unlines lines ∧ r'.stderr = unlines lines'

section Runs

theorem Progress.Noted.refl (p : Progress) : p.Noted [] p :=
  ⟨rfl, rfl, p.stderr, [], by simp, by simp⟩

/-- The second run has logged some records more. -/
theorem Progress.log_noted (p : Progress) (rank : Nat) (before noted after : List LogRecord) :
    (p.log rank (before ++ after)).Noted (logLines rank noted) (p.log rank (before ++ noted ++ after)) :=
  ⟨rfl, rfl, p.stderr ++ logLines rank before, logLines rank after, by simp [Progress.log, logLines],
    by simp [Progress.log, logLines]⟩

variable {noted : List String} {p p' : Progress}

theorem Progress.Noted.log (h : p.Noted noted p') (rank : Nat) (records : List LogRecord) :
    (p.log rank records).Noted noted (p'.log rank records) :=
  ⟨h.files, h.stdout, h.stderr.append _⟩

theorem Progress.Noted.withFiles (h : p.Noted noted p') (files : Files) :
    ({ p with files } : Progress).Noted noted { p' with files } :=
  ⟨rfl, h.stdout, h.stderr⟩

theorem Progress.Noted.collect (h : p.Noted noted p') (w : Surroundings) (rank : Nat)
    (traceTo : Option (List String)) (e : Engine) :
    (p.collect w rank traceTo e).Noted noted (p'.collect w rank traceTo e) := by
  refine ⟨?_, rfl, h.stderr.append _⟩
  simp only [Progress.collect, h.files]

theorem Progress.Noted.finish (h : p.Noted noted p') (ended : Ended) :
    ResultNoted noted (p.finish ended) (p'.finish ended) :=
  ⟨rfl, h.stdout, h.files, _, _, h.stderr, rfl, rfl⟩

theorem Progress.Noted.fail (h : p.Noted noted p') (failure : Failure) :
    ResultNoted noted (p.fail failure) (p'.fail failure) := by
  unfold Progress.fail
  split
  · exact h.finish _
  · have hreported : Progress.Noted noted { p with stderr := p.stderr ++ ["Error! " ++ failure.message] }
        { p' with stderr := p'.stderr ++ ["Error! " ++ failure.message] } :=
      ⟨h.files, h.stdout, h.stderr.append _⟩
    exact hreported.finish _

variable (fuel : Nat) (w : Surroundings) (port : Port)

theorem runProgram_noted (h : p.Noted noted p') (rank : Nat) (tracing : Bool)
    (traceTo : Option (List String)) (program : Program) (seed : Int) :
    ResultNoted noted (runProgram fuel w port rank tracing traceTo program seed p)
      (runProgram fuel w port rank tracing traceTo program seed p') := by
  simp only [runProgram]
  cases heldUp? w traceTo.isSome fuel (Engine.start program port seed tracing) with
  | some held => exact (h.collect w rank traceTo held.1.flush).finish _
  | none =>
    cases (Engine.start program port seed tracing).runToEnd fuel with
    | none => exact h.finish _
    | some run =>
      obtain ⟨e, abort⟩ := run
      have hcollected := h.collect w rank traceTo e
      cases abort with
      | none => exact (hcollected.log rank _).finish _
      | some abort =>
        cases abort with
        | fault fault => exact (hcollected.log rank _).fail _
        | interrupted | index fault => exact hcollected.finish _

/-- **What was logged before the file is loaded makes no difference afterwards.** -/
theorem runFile_noted (h : p.Noted noted p') (r : Request) (rank : Nat) (file : String)
    (traceTo : Option (List String)) :
    ResultNoted noted (runFile fuel w port r rank file traceTo p)
      (runFile fuel w port r rank file traceTo p') := by
  simp only [runFile, h.files]
  cases p.files.loadProgram (Path.ofString file) with
  | error fault => exact h.fail _
  | ok program =>
    have hloaded := h.log rank [loadedRecord (Path.ofString file) program]
    cases r.seed.value w.clock with
    | error escape => exact hloaded.finish _
    | ok seed => exact runProgram_noted fuel w port (hloaded.log rank _) rank _ traceTo program seed

end Runs

/-! ### The runner -/

/-- The record of a reserved word. -/
def reservedRecord (word : String) : LogRecord := ⟨.debug, "xrf.cli", "ignoring reserved option " ++ word⟩

theorem reservedAmong_insert {word : String} (hdash : Text.begins "-" word = true)
    (before after : List String) :
    reservedAmong (before ++ [word] ++ after) = reservedAmong before ++ [word] ++ reservedAmong after := by
  simp [reservedAmong, hdash]

theorem filesAmong_insert {word : String} (hdash : Text.begins "-" word = true)
    (before after : List String) : filesAmong (before ++ [word] ++ after) = filesAmong (before ++ after) := by
  simp [filesAmong, hdash]

/-- **What is asked for is the same with the word**, but for the reserved words. -/
theorem request_insert {u v : List String} {word : String} (hdash : Text.begins "-" word = true)
    (hdashes : word ≠ "--") (hforeign : Foreign word) (hwaits : ¬ Waits u) :
    (∃ failure, request (u ++ v) = .error failure ∧ request (u ++ [word] ++ v) = .error failure) ∨
      ∃ (r : Request) (before after : List String),
        request (u ++ v) = .ok { r with reserved := before ++ after } ∧
        request (u ++ [word] ++ v) = .ok { r with reserved := before ++ [word] ++ after } := by
  have hother : Piece [word] { extras := [word] } := .other hdashes hforeign
  rcases reads_or_refuses (u ++ v) with ⟨p, hreads⟩ | ⟨message, hrefuses⟩
  · obtain ⟨before, after, hextras, hreads'⟩ := hreads.insert hother rfl hwaits
    refine .inr ⟨⟨fileOf (filesAmong p.extras), [], p.isOn "trace", traceName p, .ofParsed p,
      askedRank .warning p⟩, reservedAmong before, reservedAmong after, ?_, ?_⟩
    · rw [request_of_reads hreads, hextras]
      simp only [reservedAmong, List.filter_append]
    · rw [request_of_reads hreads', filesAmong_insert hdash, reservedAmong_insert hdash, hextras]
      -- the values are those of the arguments without the word
      rfl
  · refine .inl ⟨.arguments message, ?_, ?_⟩
    · simp only [request, parseKnown_of_refuses hrefuses]
    · simp only [request, parseKnown_of_refuses (hrefuses.insert hother rfl hwaits)]

theorem logLines_singleton (rank : Nat) (record : LogRecord) :
    logLines rank [record] = [] ∨ logLines rank [record] = [record.line] := by
  by_cases h : rank ≤ record.level.rank <;> simp [logLines, h]

/-- Two answers to the arguments, without the word and with it. -/
theorem answer_noted (fuel : Nat) (w : Surroundings) (port : Port) {u v : List String} {word : String}
    (hdash : Text.begins "-" word = true) (hdashes : word ≠ "--") (hforeign : Foreign word)
    (hwaits : ¬ Waits u) :
    ∃ noted, (noted = [] ∨ noted = [(reservedRecord word).line]) ∧
      ResultNoted noted (answer fuel w port (u ++ v)) (answer fuel w port (u ++ [word] ++ v)) := by
  rcases request_insert (v := v) hdash hdashes hforeign hwaits with
    ⟨failure, hrequest, hrequest'⟩ | ⟨r, before, after, hrequest, hrequest'⟩
  · simp only [answer, hrequest, hrequest']
    exact ⟨[], .inl rfl, (Progress.Noted.refl _).fail failure⟩
  · simp only [answer, hrequest, hrequest']
    cases r.rank with
    | error escape => exact ⟨[], .inl rfl, (Progress.Noted.refl _).finish _⟩
    | ok rank =>
      refine ⟨logLines rank [reservedRecord word], logLines_singleton rank _, ?_⟩
      have hlog := Progress.log_noted { files := w.files } rank (before.map reservedRecord)
        [reservedRecord word] (after.map reservedRecord)
      rw [← List.map_singleton (f := reservedRecord), ← List.map_append, ← List.map_append,
        ← List.map_append] at hlog
      -- the run of the file takes from what is asked for only the seed and the trace
      cases r.file with
      | error failure => exact hlog.fail _
      | ok file =>
        cases r.traceFile with
        | none => exact runFile_noted fuel w port hlog _ rank file none
        | some name =>
          simp only [Progress.log]
          cases openTrace w.files name with
          | error fault => exact hlog.fail _
          | ok opened => exact runFile_noted fuel w port (hlog.withFiles opened.2) _ rank file _

/-- **A reserved word makes no difference.** Put a word that begins with a dash, and is neither `--` nor one of
the switches with or without a value, anywhere into the arguments but behind a switch that waits for its
value. The runner ends in the same way, with the same output and the same files, for any input and any files,
whether the program halts, fails or runs on, and also where the arguments are refused. On the error stream
there is at most one line more, the record of level `DEBUG` that tells of the word. -/
theorem reserved_ignored (fuel : Nat) (w : Surroundings) {u v : List String} {word : String}
    (hdash : Text.begins "-" word = true) (hdashes : word ≠ "--") (hforeign : Foreign word)
    (hwaits : ¬ Waits u) :
    (tool fuel w (u ++ [word] ++ v)).ended = (tool fuel w (u ++ v)).ended ∧
    (tool fuel w (u ++ [word] ++ v)).stdout = (tool fuel w (u ++ v)).stdout ∧
    (tool fuel w (u ++ [word] ++ v)).files = (tool fuel w (u ++ v)).files ∧
    ∃ before noted after,
      (tool fuel w (u ++ v)).stderr = unlines (before ++ after) ∧
      (tool fuel w (u ++ [word] ++ v)).stderr = unlines (before ++ noted ++ after) ∧
      (noted = [] ∨ noted = [(reservedRecord word).line]) := by
  have hnoted : ∃ noted, (noted = [] ∨ noted = [(reservedRecord word).line]) ∧
      ResultNoted noted (tool fuel w (u ++ v)) (tool fuel w (u ++ [word] ++ v)) := by
    unfold tool
    cases inputPort w.stdin with
    | none => exact ⟨[], .inl rfl, rfl, rfl, rfl, [], [], ⟨[], [], rfl, rfl⟩, rfl, rfl⟩
    | some port => exact answer_noted fuel w port hdash hdashes hforeign hwaits
  obtain ⟨noted, hline, hended, hstdout, hfiles, _, _, ⟨before, after, rfl, rfl⟩, hstderr, hstderr'⟩ := hnoted
  exact ⟨hended, hstdout, hfiles, before, noted, after, hstderr, hstderr', hline⟩

/-- A word without two dashes in front is none of the switches. -/
theorem foreign_of_begins {word : String} (h : Text.begins "--" word = false) : Foreign word := by
  intro switch hswitch
  obtain ⟨tail, htail⟩ := Text.begins_iff.1 (begins_label switch hswitch)
  constructor
  · rintro rfl
    exact Bool.false_ne_true (h.symm.trans (begins_label switch hswitch))
  · rintro text rfl
    have hbegins : Text.begins "--" (switch.label ++ "=" ++ text) = true := by
      rw [Text.begins_iff]
      exact ⟨tail ++ "=" ++ text, by rw [htail]; simp only [String.append_assoc]⟩
    exact Bool.false_ne_true (h.symm.trans hbegins)

/-- The word `-x` is ignored before the file, also where the log is shown. -/
theorem reserved_ignored_halting :
    Foreign "-x" ∧ ¬ Waits ["--log-level=DEBUG"] ∧
    (tool 1 haltingFile ["--log-level=DEBUG", "p"]).ended = .status 0 ∧
    (tool 1 haltingFile ["--log-level=DEBUG", "-x", "p"]).ended = .status 0 := by
  have hforeign : Foreign "-x" := foreign_of_begins (by decide)
  have hwaits : ¬ Waits ["--log-level=DEBUG"] := by
    intro h
    obtain ⟨switch, hswitch, -, hlast⟩ := h.getLast?
    have hlabels : ∀ switch ∈ spec.switches, some "--log-level=DEBUG" ≠ some switch.label := by decide
    exact hlabels switch hswitch hlast
  have hwithout : (tool 1 haltingFile ["--log-level=DEBUG", "p"]).ended = .status 0 := by decide +kernel
  have hsame := (reserved_ignored 1 haltingFile (u := ["--log-level=DEBUG"]) (v := ["p"])
    (by decide) (by decide) hforeign hwaits).1
  exact ⟨hforeign, hwaits, hwithout, hsame.trans hwithout⟩

end ChunkMachine.Run
