import ChunkMachine.Proofs.Composition
import ChunkMachine.Proofs.Loading
import ChunkMachine.Proofs.RunnerArguments

/-!
# How the runner ends

The runner reads its arguments, looks for the one file among them, opens the trace file, loads the program
and runs it to its end, and each of these stages can fail. A failure of any stage ends the runner with status
1 and one line that says what failed, after whatever the program has put out; the status is 0 only if the
program halts.

There are gaps in this. The parser drops the word `--` where it is the value of a switch, and the runner
does not count on a value that is missing: a level of the log or a seed that was dropped breaks it off. So
do two names of settings of the log that are no levels. It is also broken off where there is no standard
input, where the system fails to give the input that the program asks for, and where the trace file is open
but does not take what the trace comes to.

What else the system could do to the runner is not covered. It is taken that whatever is put out or printed
gets through, that there is enough memory, and that no signal comes.

## What is proved

* `runProgram_of_getsThrough`, `runProgram_of_overflows`, `runProgram_of_interrupted`: how a run ends.
* `tool_of_fails`, `tool_of_runs`, `tool_of_breaksOff`: how the runner ends, from what happens in its
  stages.
* `ends_somehow`: one of these happens, for all arguments and surroundings.
* `exit_status`: the status of the runner and what it tells.
-/

namespace ChunkMachine.Run

open Options

/-! ### The stages -/

/-- The name of the trace file that is asked for. -/
def traceName (p : Parsed) : Option String := (p.text? "trace_file").filter (· != "")

/-- The arguments are well formed, ask for a level of the log, and name one file. -/
structure Asks (argv : List String) (p : Parsed) (rank : Nat) (file : String) : Prop where
  reads : Reads argv p
  level : askedRank .warning p = .ok rank
  file : filesAmong p.extras = [file]

/-- The trace file could be opened, if one is asked for. This leaves it empty. -/
inductive OpensTrace (files : Files) : Option String → Option (List String) → Files → Prop where
  | none : OpensTrace files none none files
  | some {name : String} {place : List String} {files' : Files} :
    openTrace files name = .ok (place, files') → OpensTrace files (some name) (some place) files'

/-- The arguments are in order, the trace file could be opened, and the program of the file could be
loaded. -/
def Loads (w : Surroundings) (argv : List String) (p : Parsed) (traceTo : Option (List String))
    (program : Program) : Prop :=
  ∃ rank file files, Asks argv p rank file ∧ OpensTrace w.files (traceName p) traceTo files ∧
    files.loadProgram (Path.ofString file) = .ok program

/-- The runner comes to run a program, and this is the engine that it starts. The switch says whether its
trace goes to a file. -/
inductive Starts (w : Surroundings) (argv : List String) : Bool → Engine → Prop where
  | intro {p : Parsed} {traceTo : Option (List String)} {program : Program} {seed : Int} {port : Port} :
    inputPort w.stdin = some port → Loads w argv p traceTo program →
    (Seed.ofParsed p).value w.clock = .ok seed →
    Starts w argv traceTo.isSome (Engine.start program port seed (p.isOn "trace" || traceTo.isSome))

/-- The runner does not come to run a program, as one of the stages before fails. -/
inductive Fails (w : Surroundings) (argv : List String) : Failure → Prop where
  | arguments {message : String} : Refuses argv message → Fails w argv (.arguments message)
  | noFile {p : Parsed} {rank : Nat} : Reads argv p → askedRank .warning p = .ok rank →
    filesAmong p.extras = [] → Fails w argv .noFile
  | manyFiles {p : Parsed} {rank : Nat} : Reads argv p → askedRank .warning p = .ok rank →
    2 ≤ (filesAmong p.extras).length → Fails w argv .manyFiles
  | traceFile {p : Parsed} {rank : Nat} {file name : String} {fault : LoadFault} : Asks argv p rank file →
    traceName p = some name → openTrace w.files name = .error fault → Fails w argv (.load fault)
  | load {p : Parsed} {rank : Nat} {file : String} {traceTo : Option (List String)} {files : Files}
    {fault : LoadFault} : Asks argv p rank file → OpensTrace w.files (traceName p) traceTo files →
    files.loadProgram (Path.ofString file) = .error fault → Fails w argv (.load fault)

/-- The trace of the engine goes to a file and has come to more bytes than this takes. -/
def Overflows (w : Surroundings) (toFile : Bool) (e : Engine) (barrier : Barrier) : Prop :=
  toFile = true ∧ w.traceBarrier = some barrier ∧ barrier.room < (traceBytes e.trace).length

/-- The first chunks of a program get through: the file takes their trace, and no read of them fails. -/
structure GetsThrough (w : Surroundings) (toFile : Bool) (first : Engine) (k : Nat) : Prop where
  trace : ∀ j ≤ k, ∀ barrier, ¬ Overflows w toFile (first.after j) barrier
  input : ∀ j < k, (first.after j).step.2 ≠ some .interrupted

/-- The runner runs a program for so many chunks, all of which get through. This is the engine then. -/
def Runs (fuel : Nat) (w : Surroundings) (argv : List String) (e : Engine) : Prop :=
  ∃ toFile first, Starts w argv toFile first ∧ GetsThrough w toFile first fuel ∧ first.after fuel = e

/-- The runner is broken off by a value that it does not count on, or by the system. -/
inductive BreaksOff (fuel : Nat) (w : Surroundings) (argv : List String) : Escape → Prop where
  | noInput : w.stdin = .closed → BreaksOff fuel w argv .noInput
  | blankLevel {p : Parsed} : w.stdin ≠ .closed → Reads argv p → p.isBlank "log_level" = true →
    BreaksOff fuel w argv (.level .blank)
  | foreignLevel {p : Parsed} {name : String} {fault : LevelFault} : w.stdin ≠ .closed → Reads argv p →
    p.text? "log_level" = some name → rankOfName .warning name = .error fault →
    BreaksOff fuel w argv (.level fault)
  | blankSeed {p : Parsed} {traceTo : Option (List String)} {program : Program} : w.stdin ≠ .closed →
    Loads w argv p traceTo program → p.isBlank "seed" = true → BreaksOff fuel w argv .blankSeed
  /-- The trace of a chunk is too much for its file. -/
  | trace {toFile : Bool} {first : Engine} {k : Nat} {barrier : Barrier} : Starts w argv toFile first →
    k < fuel → GetsThrough w toFile first k → Overflows w toFile (first.after (k + 1)) barrier →
    BreaksOff fuel w argv (.system barrier.reason)
  /-- A chunk reads where the input fails. -/
  | input {toFile : Bool} {first : Engine} {k : Nat} {source : Bytes} {reason : String} :
    Starts w argv toFile first → k < fuel → GetsThrough w toFile first k →
    (∀ barrier, ¬ Overflows w toFile (first.after (k + 1)) barrier) →
    (first.after k).step.2 = some .interrupted → w.stdin = .opened source (some reason) →
    BreaksOff fuel w argv (.system reason)

/-- The last line on the error stream is the report of a failure. -/
def Reports (r : ToolResult) (message : String) : Prop :=
  ∃ lines, r.stderr = unlines (lines ++ ["Error! " ++ message])

/-! ### A trace that does not get through -/

theorem traceBytes_empty : traceBytes #[] = [] := by
  simp [traceBytes, unlines, encodeText, ByteArray.toList, ByteArray.toList.loop]

theorem heldUp_succ {room fuel : Nat} {e : Engine} (h : (traceBytes e.next.trace).length ≤ room) :
    heldUp room (fuel + 1) e =
      if e.status = .running ∧ e.step.2 = none then heldUp room fuel e.next else none := by
  rw [heldUp]
  by_cases hrun : e.status = .running
  · rcases hstep : e.step with ⟨e', abort⟩
    have hnext : e.next = e' := congrArg Prod.fst hstep
    rw [hnext] at h ⊢
    rw [if_pos (Engine.running_iff.2 hrun)]
    simp only [if_neg (Nat.not_lt.2 h), hrun, true_and]
    cases abort <;> rfl
  · rw [if_neg fun hr => hrun (Engine.running_iff.1 hr), if_neg fun hr => hrun hr.1]

/-- A trace that fits is not held up. -/
theorem heldUp_of_fits {room : Nat} (fuel : Nat) : ∀ {e : Engine},
    (∀ j ≤ fuel, (traceBytes (e.after j).trace).length ≤ room) → heldUp room fuel e = none := by
  induction fuel with
  | zero => intro e _; rfl
  | succ fuel ih =>
    intro e h
    rw [heldUp_succ (h 1 (by omega))]
    split
    · refine ih fun j hj => ?_
      rw [← Engine.after_succ_next]
      exact h (j + 1) (by omega)
    · rfl

/-- A trace that fits up to the chunk that is broken off is not held up. -/
theorem heldUp_of_aborted {room : Nat} (k : Nat) : ∀ {fuel : Nat} {e : Engine}, k < fuel →
    (∀ j ≤ k + 1, (traceBytes (e.after j).trace).length ≤ room) → (e.after k).step.2 ≠ none →
    heldUp room fuel e = none := by
  induction k with
  | zero =>
    intro fuel e hk h habort
    obtain ⟨fuel, rfl⟩ := Nat.exists_eq_add_of_lt hk
    rw [Nat.zero_add, heldUp_succ (h 1 (by omega)), if_neg fun hnext => habort hnext.2]
  | succ k ih =>
    intro fuel e hk h habort
    obtain ⟨fuel, rfl⟩ := Nat.exists_eq_add_of_le' (Nat.one_le_of_lt hk)
    rw [heldUp_succ (h 1 (by omega))]
    split
    · refine ih (Nat.lt_of_succ_lt_succ hk) (fun j hj => ?_) ?_
      · rw [← Engine.after_succ_next]
        exact h (j + 1) (by omega)
      · rwa [← Engine.after_succ_next]
    · rfl

/-- A trace is held up in the chunk with which it does not fit any more. -/
theorem heldUp_of_overflows {room : Nat} (k : Nat) : ∀ {fuel : Nat} {e : Engine}, e.Sound → k < fuel →
    (∀ j ≤ k, (traceBytes (e.after j).trace).length ≤ room) →
    (∀ j < k, (e.after j).step.2 ≠ some .interrupted) →
    room < (traceBytes (e.after (k + 1)).trace).length → (heldUp room fuel e).isSome := by
  -- the trace of an engine that stands still does not grow
  have hrunning : ∀ {e : Engine} (n : Nat), (traceBytes e.trace).length ≤ room →
      room < (traceBytes (e.after n).trace).length → e.status = .running := by
    intro e n hfits hover
    by_contra hstop
    rw [Engine.after_of_not_running hstop] at hover
    omega
  induction k with
  | zero =>
    intro fuel e _ hk hfits _ hover
    obtain ⟨fuel, rfl⟩ := Nat.exists_eq_add_of_lt hk
    have hrun : e.status = .running := hrunning 1 (hfits 0 (by omega)) hover
    rcases hstep : e.step with ⟨e', abort⟩
    have hover' : room < (traceBytes e'.trace).length := by
      have hnext : e.next = e' := congrArg Prod.fst hstep
      rwa [← hnext]
    rw [Nat.zero_add, heldUp, if_pos (Engine.running_iff.2 hrun), hstep]
    simp only [if_pos hover', Option.isSome_some]
  | succ k ih =>
    intro fuel e hsound hk hfits hni hover
    obtain ⟨fuel, rfl⟩ := Nat.exists_eq_add_of_le' (Nat.one_le_of_lt hk)
    have hrun : e.status = .running := hrunning _ (hfits 0 (by omega)) hover
    have hfirst : e.step.2 ≠ some .interrupted := hni 0 (by omega)
    have hnext : (traceBytes e.next.trace).length ≤ room := hfits 1 (by omega)
    rw [Engine.after_succ_next] at hover
    have hgoes : e.step.2 = none := by
      cases habort : e.step.2 with
      | none => rfl
      | some abort =>
        obtain ⟨fault, -, hfailed⟩ := Engine.step_abort hsound habort fun hi => hfirst (hi ▸ habort)
        have hrun' := hrunning (k + 1) hnext hover
        rw [hfailed] at hrun'
        cases hrun'
    rw [heldUp_succ hnext, if_pos ⟨hrun, hgoes⟩]
    refine ih (Engine.next_sound hsound hfirst) (Nat.lt_of_succ_lt_succ hk) (fun j hj => ?_)
      (fun j hj => ?_) hover
    · rw [← Engine.after_succ_next]
      exact hfits (j + 1) (by omega)
    · rw [← Engine.after_succ_next]
      exact hni (j + 1) (by omega)

theorem heldUp?_eq_none {w : Surroundings} {toFile : Bool} {fuel : Nat} {e : Engine}
    (h : ∀ barrier, toFile = true → w.traceBarrier = some barrier → heldUp barrier.room fuel e = none) :
    heldUp? w toFile fuel e = none := by
  unfold heldUp?
  cases hbarrier : w.traceBarrier with
  | none => rfl
  | some barrier =>
    cases toFile with
    | false => rfl
    | true => simp [h barrier rfl hbarrier]

namespace GetsThrough

variable {w : Surroundings} {toFile : Bool} {first : Engine} {k : Nat}

theorem fits {barrier : Barrier} (h : GetsThrough w toFile first k) (htoFile : toFile = true)
    (hbarrier : w.traceBarrier = some barrier) :
    ∀ j ≤ k, (traceBytes (first.after j).trace).length ≤ barrier.room := fun j hj =>
  Nat.not_lt.1 fun hover => h.trace j hj barrier ⟨htoFile, hbarrier, hover⟩

theorem zero (h : first.trace = #[]) : GetsThrough w toFile first 0 := by
  refine ⟨fun j hj barrier hover => ?_, fun j hj => absurd hj (Nat.not_lt_zero j)⟩
  obtain rfl := Nat.le_zero.1 hj
  have hover' := hover.2.2
  rw [Engine.after_zero, h, traceBytes_empty] at hover'
  exact absurd hover' (Nat.not_lt_zero _)

theorem succ (h : GetsThrough w toFile first k)
    (hfits : ∀ barrier, ¬ Overflows w toFile (first.after (k + 1)) barrier)
    (hinput : (first.after k).step.2 ≠ some .interrupted) : GetsThrough w toFile first (k + 1) := by
  refine ⟨fun j hj => ?_, fun j hj => ?_⟩
  · rcases Nat.lt_or_eq_of_le hj with hlt | rfl
    · exact h.trace j (Nat.le_of_lt_succ hlt)
    · exact hfits
  · rcases Nat.lt_or_eq_of_le (Nat.le_of_lt_succ hj) with hlt | rfl
    · exact h.input j hlt
    · exact hinput

end GetsThrough

/-! ### Running the program -/

/-- What the runner tells about a program that it ran for so long. -/
def TellsEnd (r : ToolResult) (e : Engine) : Prop :=
  match e.status with
  | .running => r.ended = .unfinished
  | .halted => r.ended = .status 0 ∧ r.stdout = [.bytes e.port.output]
  | .failed fault => r.ended = .status 1 ∧ r.stdout = [.bytes e.port.output] ∧ Reports r fault.message

theorem fail_reports (p : Progress) (failure : Failure) (h : failure ≠ .load .nullByte) :
    (p.fail failure).ended = .status 1 ∧ (p.fail failure).stdout = p.stdout ∧
      Reports (p.fail failure) failure.message := by
  unfold Progress.fail
  split
  · exact absurd rfl h
  · exact ⟨rfl, rfl, p.stderr, rfl⟩

section Running

variable {fuel k : Nat} {w : Surroundings} {traceTo : Option (List String)} {program : Program} {port : Port}
  {seed : Int} {tracing : Bool} {first : Engine}

/-- **The runner tells how the program ended** if all of it gets through, also when it is traced and when
the log is shown. -/
theorem runProgram_of_getsThrough (hfirst : Engine.start program port seed tracing = first)
    (h : GetsThrough w traceTo.isSome first fuel) (rank : Nat) (p : Progress) :
    TellsEnd (runProgram fuel w port rank tracing traceTo program seed p) (first.after fuel) := by
  have hsound : first.Sound := hfirst ▸ Engine.start_sound program port seed tracing
  have hthrough : heldUp? w traceTo.isSome fuel first = none :=
    heldUp?_eq_none fun barrier htoFile hbarrier => heldUp_of_fits fuel (h.fits htoFile hbarrier)
  have hend := Engine.runToEnd_eq hsound h.input (by rw [← hfirst]; rfl)
  generalize first.after fuel = e at hend
  have houtput : e.flush.port.output = e.port.output := Endpoint.output_flush _
  unfold TellsEnd runProgram
  simp only [hfirst, hthrough, hend]
  cases hstatus : e.status with
  | running => rfl
  | halted =>
    have hflush : e.flush.status = .halted := hstatus
    simp only [reduceCtorEq, if_false, Engine.fault?, hstatus, Option.map_none, hflush, if_true]
    exact ⟨rfl, congrArg ([Put.bytes ·]) houtput⟩
  | failed fault =>
    simp only [reduceCtorEq, if_false, Engine.fault?, hstatus, Option.map_some]
    obtain ⟨hended, hstdout, hreports⟩ := fail_reports
      ((p.collect w rank traceTo e.flush).log rank [failureRecord e.flush fault]) (.program fault) (by simp)
    exact ⟨hended, hstdout.trans (congrArg ([Put.bytes ·]) houtput), hreports⟩

/-- A trace that is too much for its file breaks the runner off. -/
theorem runProgram_of_overflows {barrier : Barrier} (hfirst : Engine.start program port seed tracing = first)
    (hk : k < fuel) (h : GetsThrough w traceTo.isSome first k)
    (hover : Overflows w traceTo.isSome (first.after (k + 1)) barrier) (rank : Nat) (p : Progress) :
    (runProgram fuel w port rank tracing traceTo program seed p).ended =
      .escaped (.system barrier.reason) := by
  obtain ⟨htoFile, hbarrier, hover⟩ := hover
  have hsound : first.Sound := hfirst ▸ Engine.start_sound program port seed tracing
  have hheld := heldUp_of_overflows k hsound hk (h.fits htoFile hbarrier) h.input hover
  obtain ⟨e, he⟩ := Option.isSome_iff_exists.1 hheld
  have hheld? : heldUp? w traceTo.isSome fuel first = some (e, barrier.reason) := by
    simp only [heldUp?, hbarrier, htoFile, if_true, he, Option.map_some]
  simp only [runProgram, hfirst, hheld?]
  rfl

/-- A read that fails breaks the runner off. -/
theorem runProgram_of_interrupted (hfirst : Engine.start program port seed tracing = first)
    (hk : k < fuel) (h : GetsThrough w traceTo.isSome first k)
    (hfits : ∀ barrier, ¬ Overflows w traceTo.isSome (first.after (k + 1)) barrier)
    (hinterrupted : (first.after k).step.2 = some .interrupted) (rank : Nat) (p : Progress) :
    (runProgram fuel w port rank tracing traceTo program seed p).ended =
      .escaped (inputEscape w.stdin) := by
  have hsound : first.Sound := hfirst ▸ Engine.start_sound program port seed tracing
  have hthrough : heldUp? w traceTo.isSome fuel first = none := by
    refine heldUp?_eq_none fun barrier htoFile hbarrier =>
      heldUp_of_aborted k hk (fun j hj => ?_) (by rw [hinterrupted]; simp)
    rcases Nat.lt_or_eq_of_le hj with hlt | rfl
    · exact h.fits htoFile hbarrier j (Nat.le_of_lt_succ hlt)
    · exact Nat.not_lt.1 fun hover => hfits barrier ⟨htoFile, hbarrier, hover⟩
  obtain ⟨e, he⟩ := Engine.runToEnd_of_interrupted hsound (by rw [← hfirst]; rfl) hk h.input hinterrupted
  simp only [runProgram, hfirst, hthrough, he]
  rfl

end Running

/-! ### What each stage leads to -/

section

variable (fuel : Nat) {w : Surroundings} {argv : List String} {port : Port}

theorem answer_of_refuses {message : String} (h : Refuses argv message) :
    answer fuel w port argv = Progress.fail { files := w.files } (.arguments message) := by
  simp only [answer, request, parseKnown_of_refuses h]

/-- What the runner asks for, from well-formed arguments. -/
theorem request_of_reads {p : Parsed} (h : Reads argv p) :
    request argv = .ok
      { file := fileOf (filesAmong p.extras), reserved := reservedAmong p.extras, trace := p.isOn "trace"
        traceFile := traceName p, seed := .ofParsed p, rank := askedRank .warning p } := by
  simp only [request, parseKnown_of_reads h]
  rfl

theorem answer_of_level_error {p : Parsed} {escape : Escape} (h : Reads argv p)
    (hlevel : askedRank .warning p = .error escape) :
    (answer fuel w port argv).ended = .escaped escape := by
  simp only [answer, request_of_reads h, hlevel]
  rfl

/-- Without one file the runner fails before it touches any. -/
theorem answer_of_file_error {p : Parsed} {rank : Nat} {failure : Failure} (h : Reads argv p)
    (hlevel : askedRank .warning p = .ok rank) (hfile : fileOf (filesAmong p.extras) = .error failure) :
    ∃ progress : Progress, progress.stdout = [] ∧ answer fuel w port argv = progress.fail failure := by
  simp only [answer, request_of_reads h, hlevel, hfile]
  exact ⟨_, rfl, rfl⟩

theorem answer_of_trace_error {p : Parsed} {rank : Nat} {file name : String} {fault : LoadFault}
    (h : Asks argv p rank file) (hname : traceName p = some name)
    (hopen : openTrace w.files name = .error fault) :
    ∃ progress : Progress, progress.stdout = [] ∧
      answer fuel w port argv = progress.fail (.load fault) := by
  have hfile : fileOf (filesAmong p.extras) = .ok file := by rw [h.file]; rfl
  have hlog : ∀ records, (Progress.log { files := w.files } rank records).files = w.files := fun _ => rfl
  simp only [answer, request_of_reads h.reads, h.level, hfile, hname, hlog, hopen]
  exact ⟨_, rfl, rfl⟩

/-- Once the trace file is open, the runner turns to the file of the program. -/
theorem answer_of_opensTrace {p : Parsed} {rank : Nat} {file : String} {traceTo : Option (List String)}
    {files : Files} (h : Asks argv p rank file) (htrace : OpensTrace w.files (traceName p) traceTo files) :
    ∃ (progress : Progress) (r : Request), progress.files = files ∧ progress.stdout = [] ∧
      r.seed = .ofParsed p ∧ r.trace = p.isOn "trace" ∧
      answer fuel w port argv = runFile fuel w port r rank file traceTo progress := by
  have hfile : fileOf (filesAmong p.extras) = .ok file := by rw [h.file]; rfl
  have hlog : ∀ records, (Progress.log { files := w.files } rank records).files = w.files := fun _ => rfl
  generalize hname : traceName p = name at htrace
  cases htrace with
  | none =>
    simp only [answer, request_of_reads h.reads, h.level, hfile, hname]
    exact ⟨_, _, rfl, rfl, rfl, rfl, rfl⟩
  | some hopen =>
    simp only [answer, request_of_reads h.reads, h.level, hfile, hname, hlog, hopen]
    exact ⟨_, _, rfl, rfl, rfl, rfl, rfl⟩

theorem answer_of_load_error {p : Parsed} {rank : Nat} {file : String} {traceTo : Option (List String)}
    {files : Files} {fault : LoadFault} (h : Asks argv p rank file)
    (htrace : OpensTrace w.files (traceName p) traceTo files)
    (hload : files.loadProgram (Path.ofString file) = .error fault) :
    ∃ progress : Progress, progress.stdout = [] ∧
      answer fuel w port argv = progress.fail (.load fault) := by
  obtain ⟨progress, r, rfl, hstdout, -, -, hanswer⟩ := answer_of_opensTrace fuel h htrace
  rw [hanswer, runFile]
  simp only [hload]
  exact ⟨progress, hstdout, rfl⟩

variable (port) in
/-- Once the program is loaded, it is run with the seed, if there is one. -/
theorem answer_of_loads {p : Parsed} {traceTo : Option (List String)} {program : Program}
    (h : Loads w argv p traceTo program) :
    ∃ (progress : Progress) (rank : Nat),
      answer fuel w port argv =
        match (Seed.ofParsed p).value w.clock with
        | .error escape => progress.finish (.escaped escape)
        | .ok seed =>
          runProgram fuel w port rank (p.isOn "trace" || traceTo.isSome) traceTo program seed
            progress := by
  obtain ⟨rank, file, files, hasks, htrace, hload⟩ := h
  obtain ⟨progress, r, rfl, -, hseed, hon, hanswer⟩ := answer_of_opensTrace fuel hasks htrace
  rw [hanswer, runFile]
  simp only [hload, hseed, hon]
  cases (Seed.ofParsed p).value w.clock with
  | error escape => exact ⟨_, rank, rfl⟩
  | ok seed => exact ⟨_, rank, rfl⟩

/-! ### The runner -/

theorem tool_of_port (h : inputPort w.stdin = some port) :
    tool fuel w argv = answer fuel w port argv := by
  simp only [tool, h]

/-- There is a port unless the standard input is closed. -/
theorem exists_inputPort (h : w.stdin ≠ .closed) : ∃ port, inputPort w.stdin = some port := by
  cases hstdin : w.stdin with
  | closed => exact absurd hstdin h
  | opened source failure => cases failure <;> exact ⟨_, rfl⟩

/-- A read is interrupted only where the input is known to fail. -/
theorem Starts.exists_failure {toFile : Bool} {first : Engine} (h : Starts w argv toFile first) {k : Nat}
    (hinterrupted : (first.after k).step.2 = some .interrupted) :
    ∃ source reason, w.stdin = .opened source (some reason) := by
  obtain ⟨hport, -, -⟩ := h
  cases hstdin : w.stdin with
  | closed =>
    rw [hstdin] at hport
    cases hport
  | opened source failure =>
    cases failure with
    | some reason => exact ⟨source, reason, rfl⟩
    | none =>
      rw [hstdin] at hport
      cases hport
      refine absurd hinterrupted (Engine.step_after_uninterrupted ?_ k)
      simp [Engine.start, Engine.port, Port.Uninterrupted, Port.ofStreams]

/-- **The runner tells how a program ended that it ran.** -/
theorem tool_of_runs {e : Engine} (h : Runs fuel w argv e) : TellsEnd (tool fuel w argv) e := by
  obtain ⟨toFile, first, ⟨hport, hloads, hseed⟩, hthrough, rfl⟩ := h
  obtain ⟨progress, rank, hanswer⟩ := answer_of_loads fuel _ hloads
  rw [tool_of_port fuel hport, hanswer, hseed]
  exact runProgram_of_getsThrough rfl hthrough rank progress

/-- **What breaks the runner off is not reported.** -/
theorem tool_of_breaksOff {escape : Escape} (h : BreaksOff fuel w argv escape) :
    (tool fuel w argv).ended = .escaped escape := by
  cases h with
  | noInput hclosed => simp only [tool, hclosed, inputPort]
  | blankLevel hopened hreads hblank =>
    obtain ⟨port, hport⟩ := exists_inputPort hopened
    rw [tool_of_port fuel hport]
    exact answer_of_level_error fuel hreads (by rw [askedRank, if_pos hblank])
  | @foreignLevel p name fault hopened hreads hname hrank =>
    obtain ⟨port, hport⟩ := exists_inputPort hopened
    have hblank : ¬ p.isBlank "log_level" = true := by
      intro hblank
      have hlast : p.last? "log_level" = some .blank := by simpa [Parsed.isBlank] using hblank
      rw [Parsed.text?, hlast] at hname
      cases hname
    rw [tool_of_port fuel hport]
    refine answer_of_level_error fuel hreads ?_
    simp only [askedRank, if_neg hblank, hname, hrank]
    rfl
  | @blankSeed p traceTo program hopened hloads hblank =>
    obtain ⟨port, hport⟩ := exists_inputPort hopened
    obtain ⟨progress, rank, hanswer⟩ := answer_of_loads fuel port hloads
    have hseed : (Seed.ofParsed p).value w.clock = .error .blankSeed := by
      rw [Seed.ofParsed, if_pos hblank]
      rfl
    rw [tool_of_port fuel hport, hanswer, hseed]
    rfl
  | trace hstarts hk hthrough hover =>
    obtain ⟨hport, hloads, hseed⟩ := hstarts
    obtain ⟨progress, rank, hanswer⟩ := answer_of_loads fuel _ hloads
    rw [tool_of_port fuel hport, hanswer, hseed]
    exact runProgram_of_overflows rfl hk hthrough hover rank progress
  | input hstarts hk hthrough hfits hinterrupted hstdin =>
    obtain ⟨hport, hloads, hseed⟩ := hstarts
    obtain ⟨progress, rank, hanswer⟩ := answer_of_loads fuel _ hloads
    rw [tool_of_port fuel hport, hanswer, hseed]
    have hended := runProgram_of_interrupted rfl hk hthrough hfits hinterrupted rank progress
    rw [hstdin] at hended
    exact hended

/-- A path among arguments without null characters is not refused for one. -/
theorem Fails.ne_nullByte {failure : Failure} (h : Fails w argv failure)
    (hnull : ∀ word ∈ argv, '\x00' ∉ word.toList) : failure ≠ .load .nullByte := by
  have hmade : ∀ {p : Parsed}, Reads argv p → MadeOf (· ≠ '\x00') p := fun hreads =>
    hreads.madeOf fun word hword c hc => by
      rintro rfl
      exact hnull word hword hc
  cases h with
  | arguments | noFile | manyFiles => simp
  | @traceFile p rank file name fault hasks hname hopen =>
    rintro hfault
    cases hfault
    obtain ⟨text, htext, hne⟩ : ∃ text, p.text? "trace_file" = some text ∧ text = name := by
      rw [traceName, Option.filter_eq_some_iff] at hname
      exact ⟨name, hname.1, rfl⟩
    subst hne
    have hpath := Path.hasNull_ofString fun hc => (hmade hasks.reads).of_text? htext _ hc rfl
    unfold openTrace at hopen
    simp only [hpath, Bool.false_eq_true, if_false] at hopen
    split at hopen
    · cases hopen
    · split at hopen
      · cases hopen
      · cases hopen
      · split at hopen <;> cases hopen
  | @load p rank file traceTo files fault hasks htrace hload =>
    rintro hfault
    cases hfault
    have hfile : file ∈ p.extras := by
      have hmem : file ∈ filesAmong p.extras := by rw [hasks.file]; exact List.mem_singleton_self file
      exact (List.mem_filter.1 hmem).1
    have hpath := Path.hasNull_ofString fun hc => (hmade hasks.reads).extras file hfile _ hc rfl
    exact Files.loadProgram_ne_nullByte hpath hload

/-- **A failure before the program is run is reported**, and nothing is put out. -/
theorem tool_of_fails {failure : Failure} (hnull : ∀ word ∈ argv, '\x00' ∉ word.toList)
    (hopened : w.stdin ≠ .closed) (h : Fails w argv failure) :
    (tool fuel w argv).ended = .status 1 ∧ (tool fuel w argv).stdout = [] ∧
      Reports (tool fuel w argv) failure.message := by
  have hne := h.ne_nullByte hnull
  obtain ⟨port, hport⟩ := exists_inputPort hopened
  obtain ⟨progress, hstdout, hanswer⟩ : ∃ progress : Progress, progress.stdout = [] ∧
      answer fuel w port argv = progress.fail failure := by
    cases h with
    | arguments hrefuses => exact ⟨_, rfl, answer_of_refuses fuel hrefuses⟩
    | noFile hreads hlevel hfiles =>
      exact answer_of_file_error fuel hreads hlevel (by rw [hfiles]; rfl)
    | @manyFiles p rank hreads hlevel hfiles =>
      refine answer_of_file_error fuel hreads hlevel ?_
      match filesAmong p.extras, hfiles with
      | _ :: _ :: _, _ => rfl
    | traceFile hasks hname hopen => exact answer_of_trace_error fuel hasks hname hopen
    | load hasks htrace hload => exact answer_of_load_error fuel hasks htrace hload
  obtain ⟨hended, hstdout', hreports⟩ := fail_reports progress failure hne
  rw [tool_of_port fuel hport, hanswer]
  exact ⟨hended, hstdout'.trans hstdout, hreports⟩

/-! ### All arguments and surroundings -/

/-- A level is asked for, or what was asked for breaks the runner off. -/
theorem level_or_breaksOff {p : Parsed} (hopened : w.stdin ≠ .closed) (h : Reads argv p) :
    (∃ rank, askedRank .warning p = .ok rank) ∨ ∃ escape, BreaksOff fuel w argv escape := by
  by_cases hblank : p.isBlank "log_level" = true
  · exact .inr ⟨_, .blankLevel hopened h hblank⟩
  · cases hname : p.text? "log_level" with
    | none => exact .inl ⟨Level.warning.rank, by simp only [askedRank, if_neg hblank, hname]⟩
    | some name =>
      cases hrank : rankOfName .warning name with
      | error fault => exact .inr ⟨_, .foreignLevel hopened h hname hrank⟩
      | ok rank =>
        refine .inl ⟨rank, ?_⟩
        simp only [askedRank, if_neg hblank, hname, hrank]
        rfl

/-- A trace file can be opened or not. -/
theorem opensTrace_or {p : Parsed} (files : Files) :
    (∃ traceTo files', OpensTrace files (traceName p) traceTo files') ∨
      ∃ name fault, traceName p = some name ∧ openTrace files name = .error fault := by
  cases hname : traceName p with
  | none => exact .inl ⟨none, files, .none⟩
  | some name =>
    cases hopen : openTrace files name with
    | error fault => exact .inr ⟨name, fault, rfl, hopen⟩
    | ok opened =>
      obtain ⟨place, files'⟩ := opened
      exact .inl ⟨some place, files', .some hopen⟩

/-- A program that is started is run, or one of its chunks is the first that does not get through. -/
theorem runs_or_breaksOff {toFile : Bool} {first : Engine} (h : Starts w argv toFile first) :
    (∃ e, Runs fuel w argv e) ∨ ∃ escape, BreaksOff fuel w argv escape := by
  have hstart : GetsThrough w toFile first 0 := by
    obtain ⟨hport, hloads, hseed⟩ := h
    exact .zero rfl
  have hgets : ∀ k ≤ fuel, GetsThrough w toFile first k ∨ ∃ escape, BreaksOff fuel w argv escape := by
    intro k
    induction k with
    | zero => exact fun _ => .inl hstart
    | succ k ih =>
      intro hk
      refine (ih (Nat.le_of_succ_le hk)).elim (fun hthrough => ?_) .inr
      by_cases hover : ∃ barrier, Overflows w toFile (first.after (k + 1)) barrier
      · obtain ⟨barrier, hover⟩ := hover
        exact .inr ⟨_, .trace h hk hthrough hover⟩
      · have hfits : ∀ barrier, ¬ Overflows w toFile (first.after (k + 1)) barrier :=
          fun barrier hbarrier => hover ⟨barrier, hbarrier⟩
        by_cases hinterrupted : (first.after k).step.2 = some .interrupted
        · obtain ⟨source, reason, hstdin⟩ := h.exists_failure hinterrupted
          exact .inr ⟨_, .input h hk hthrough hfits hinterrupted hstdin⟩
        · exact .inl (hthrough.succ hfits hinterrupted)
  exact (hgets fuel (Nat.le_refl fuel)).imp_left fun hthrough => ⟨_, toFile, first, h, hthrough, rfl⟩

/-- **One of these happens.** -/
theorem ends_somehow (w : Surroundings) (argv : List String) :
    (∃ e, Runs fuel w argv e) ∨ (w.stdin ≠ .closed ∧ ∃ failure, Fails w argv failure) ∨
      ∃ escape, BreaksOff fuel w argv escape := by
  by_cases hopened : w.stdin = .closed
  · exact .inr (.inr ⟨_, .noInput hopened⟩)
  obtain ⟨port, hport⟩ := exists_inputPort hopened
  rcases reads_or_refuses argv with ⟨p, hreads⟩ | ⟨message, hrefuses⟩
  swap
  · exact .inr (.inl ⟨hopened, _, .arguments hrefuses⟩)
  rcases level_or_breaksOff fuel hopened hreads with ⟨rank, hlevel⟩ | hbreaks
  swap
  · exact .inr (.inr hbreaks)
  rcases hfiles : filesAmong p.extras with _ | ⟨file, _ | ⟨other, files⟩⟩
  · exact .inr (.inl ⟨hopened, _, .noFile hreads hlevel hfiles⟩)
  · have hasks : Asks argv p rank file := ⟨hreads, hlevel, hfiles⟩
    rcases opensTrace_or (p := p) w.files with ⟨traceTo, files, htrace⟩ | ⟨name, fault, hname, hopen⟩
    · cases hload : files.loadProgram (Path.ofString file) with
      | error fault => exact .inr (.inl ⟨hopened, _, .load hasks htrace hload⟩)
      | ok program =>
        have hloads : Loads w argv p traceTo program := ⟨rank, file, files, hasks, htrace, hload⟩
        by_cases hblank : p.isBlank "seed" = true
        · exact .inr (.inr ⟨_, .blankSeed hopened hloads hblank⟩)
        · have hseed : ∃ seed, (Seed.ofParsed p).value w.clock = .ok seed := by
            rw [Seed.ofParsed, if_neg hblank]
            cases p.int? "seed" with
            | none => exact ⟨_, rfl⟩
            | some n => exact ⟨_, rfl⟩
          obtain ⟨seed, hseed⟩ := hseed
          exact (runs_or_breaksOff fuel (.intro hport hloads hseed)).imp_right .inr
    · exact .inr (.inl ⟨hopened, _, .traceFile hasks hname hopen⟩)
  · exact .inr (.inl ⟨hopened, _, .manyFiles hreads hlevel (by rw [hfiles]; simp)⟩)

/-- If one of four things happens and no two of them have the same end, then each can be told by its end. -/
theorem told_by_end {ended : Ended} {halts fails runs : Prop} {breaks : Escape → Prop}
    (hhalts : halts → ended = .status 0) (hfails : fails → ended = .status 1)
    (hruns : runs → ended = .unfinished) (hbreaks : ∀ escape, breaks escape → ended = .escaped escape)
    (h : halts ∨ fails ∨ runs ∨ ∃ escape, breaks escape) :
    (ended = .status 0 ↔ halts) ∧ (ended = .status 1 ↔ fails) ∧ (ended = .unfinished ↔ runs) ∧
      (∀ escape, ended = .escaped escape ↔ breaks escape) ∧
      (ended = .status 0 ∨ ended = .status 1 ∨ ended = .unfinished ∨ ∃ escape, ended = .escaped escape) := by
  refine ⟨⟨?_, hhalts⟩, ⟨?_, hfails⟩, ⟨?_, hruns⟩, fun escape => ⟨?_, hbreaks escape⟩, ?_⟩ <;> grind

/-- **The status of the runner.** Take arguments without null characters, any files and any standard input,
also one that is closed or fails, and give the program `fuel` chunks. The runner returns 0 just if the
arguments are well formed, name one file and ask for a level of the log, the trace file could be opened if
there is one, the program of the file could be loaded, there is a seed, and the program is run and halts. It
returns 1 just if one of the stages before the program fails, or the program does; the last line on the error
stream then reports this failure, and on the output is what the program has put out until then, and nothing
else. It does not end only if the program still runs. It is broken off just by a level or a seed that was
dropped, by a level that is none, by a standard input that is missing or fails where the program reads, or by
a trace file that is open but does not take the trace. There is no other end, as long as whatever is put out
or printed gets through, there is enough memory, and no signal comes. -/
theorem exit_status (w : Surroundings) (argv : List String)
    (hnull : ∀ word ∈ argv, '\x00' ∉ word.toList) :
    let r := tool fuel w argv
    (r.ended = .status 0 ↔ ∃ e, Runs fuel w argv e ∧ e.status = .halted) ∧
    (r.ended = .status 1 ↔ (w.stdin ≠ .closed ∧ ∃ failure, Fails w argv failure) ∨
      ∃ e fault, Runs fuel w argv e ∧ e.status = .failed fault) ∧
    (r.ended = .unfinished ↔ ∃ e, Runs fuel w argv e ∧ e.status = .running) ∧
    (∀ escape, r.ended = .escaped escape ↔ BreaksOff fuel w argv escape) ∧
    (r.ended = .status 0 ∨ r.ended = .status 1 ∨ r.ended = .unfinished ∨
      ∃ escape, r.ended = .escaped escape) ∧
    (∀ failure, w.stdin ≠ .closed → Fails w argv failure → r.stdout = [] ∧ Reports r failure.message) ∧
    (∀ e, Runs fuel w argv e → e.status ≠ .running →
      r.stdout = [.bytes e.port.output] ∧ ∀ fault, e.status = .failed fault → Reports r fault.message) := by
  intro r
  have hruns : ∀ e, Runs fuel w argv e → TellsEnd r e := fun e => tool_of_runs fuel
  have hfails : ∀ failure, w.stdin ≠ .closed → Fails w argv failure →
      r.ended = .status 1 ∧ r.stdout = [] ∧ Reports r failure.message := fun failure =>
    tool_of_fails fuel hnull
  have hbreaks : ∀ escape, BreaksOff fuel w argv escape → r.ended = .escaped escape := fun escape =>
    tool_of_breaksOff fuel
  have hhalted : (∃ e, Runs fuel w argv e ∧ e.status = .halted) → r.ended = .status 0 := by
    rintro ⟨e, he, hstatus⟩
    have htells := hruns e he
    simp only [TellsEnd, hstatus] at htells
    exact htells.1
  have hfailed : ((w.stdin ≠ .closed ∧ ∃ failure, Fails w argv failure) ∨
      ∃ e fault, Runs fuel w argv e ∧ e.status = .failed fault) → r.ended = .status 1 := by
    rintro (⟨hopened, failure, hfailure⟩ | ⟨e, fault, he, hstatus⟩)
    · exact (hfails failure hopened hfailure).1
    · have htells := hruns e he
      simp only [TellsEnd, hstatus] at htells
      exact htells.1
  have hrunning : (∃ e, Runs fuel w argv e ∧ e.status = .running) → r.ended = .unfinished := by
    rintro ⟨e, he, hstatus⟩
    have htells := hruns e he
    simpa only [TellsEnd, hstatus] using htells
  obtain ⟨hzero, hone, hunfinished, hescaped, hno_other⟩ :=
    told_by_end hhalted hfailed hrunning hbreaks (by
      rcases ends_somehow fuel w argv with ⟨e, he⟩ | hfailure | hescape
      · cases hstatus : e.status with
        | running => exact .inr (.inr (.inl ⟨e, he, hstatus⟩))
        | halted => exact .inl ⟨e, he, hstatus⟩
        | failed fault => exact .inr (.inl (.inr ⟨e, fault, he, hstatus⟩))
      · exact .inr (.inl (.inl hfailure))
      · exact .inr (.inr (.inr hescape)))
  refine ⟨hzero, hone, hunfinished, hescaped, hno_other, fun failure hopened hfailure =>
    (hfails failure hopened hfailure).2, fun e he hstatus => ?_⟩
  have htells := hruns e he
  cases hend : e.status with
  | running => exact absurd hend hstatus
  | halted =>
    simp only [TellsEnd, hend] at htells
    exact ⟨htells.2, by simp⟩
  | failed fault =>
    simp only [TellsEnd, hend] at htells
    refine ⟨htells.2.1, fun fault' hfault => ?_⟩
    cases hfault
    exact htells.2.2

end

/-- Surroundings with a program that halts in its first chunk. -/
def haltingFile : Surroundings := { files := { nodes := [(["p"], .file (encodeText "5555B"))] } }

/-- The program halts if it is run as it is, and it is not run if its seed is dropped. -/
theorem exit_status_dropped :
    (tool 1 haltingFile ["p"]).ended = .status 0 ∧
    (∃ e, Runs 1 haltingFile ["p"] e ∧ e.status = .halted) ∧
    (tool 1 haltingFile ["--seed=--", "p"]).ended = .escaped .blankSeed ∧
    BreaksOff 1 haltingFile ["--seed=--", "p"] .blankSeed := by
  have hhalted : (tool 1 haltingFile ["p"]).ended = .status 0 := by decide +kernel
  have hbroken : (tool 1 haltingFile ["--seed=--", "p"]).ended = .escaped .blankSeed := by decide +kernel
  exact ⟨hhalted, (exit_status 1 haltingFile ["p"] (by decide)).1.1 hhalted, hbroken,
    ((exit_status 1 haltingFile ["--seed=--", "p"] (by decide)).2.2.2.1 .blankSeed).1 hbroken⟩

end ChunkMachine.Run
