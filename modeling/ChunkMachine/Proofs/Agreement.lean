import ChunkMachine.Proofs.Loading
import ChunkMachine.Proofs.Quoting
import ChunkMachine.Proofs.Resumption
import ChunkMachine.Proofs.ToolArguments

/-!
# The runner and the debugger agree

The same program can be run by the runner, and by the debugger with the one command `continue`. The two
do not share much: the runner steps the engine up to its end and flushes once, the debugger loads the
file by a command line that it writes itself, steps the engine under its own loop and flushes after every
chunk. Yet they must not differ in anything that the program does.

They differ in one point before the program starts. The debugger puts a home directory in for a leading
tilde of the path, and it does so after empty names and single dots have been dropped. So `./~` is a file
to the runner and the home directory to the debugger. Where there is no such tilde, both end with the same
status, the program has put out the same bytes, and the same complaint is made.

The bytes of the program and the text that a tool prints are compared apart. They go to the same stream,
but the text may be kept back in a layer above it.

## What is proved

* `Run.answer_of_seed`, `Run.runProgram_eq`: what the runner tells, from the steps of an engine.
* `Debugger.dispatch_load`, `Debugger.continue_eq`: what the two command lines do.
* `Debug.answer_of_load_error`, `Debug.answer_of_load_ok`: what the debugger tells, from the steps of the
  same engine.
* `tools_agree`: both tell the same. `tools_disagree_tilde` shows that they do not for `./~`.
-/

namespace ChunkMachine

/-! ### The runner -/

namespace Run

open Options

@[simp] theorem log_nil (p : Progress) (rank : Nat) : p.log rank [] = p := by
  simp [Progress.log, logLines]

/-- The runner does not print what is of interest to a debugger only. -/
@[simp] theorem log_debug (p : Progress) (source message : String) :
    p.log Level.warning.rank [⟨.debug, source, message⟩] = p := by
  simp [Progress.log, logLines, Level.rank]

/-- The runner loads the file and runs the program with the seed. -/
theorem answer_of_seed {fuel : Nat} {w : Surroundings} {port : Port} {seed file : String} {q : Request}
    {n : Int} (hfile : Text.begins "-" file = false) (hseed : request ["--seed", seed, file] = .ok q)
    (hn : Text.readDecimal seed = some n) :
    answer fuel w port ["--seed", seed, file] =
      match w.files.loadProgram (Path.ofString file) with
      | .error fault => Progress.fail { files := w.files } (.load fault)
      | .ok program =>
        runProgram fuel w port Level.warning.rank false none program n { files := w.files } := by
  obtain ⟨-, -, m, hm, rfl⟩ := request_of_seed hfile hseed
  rw [hn] at hm
  cases hm
  cases hload : w.files.loadProgram (Path.ofString file) with
  | error fault => simp only [answer, hseed, List.map_nil, log_nil, runFile, hload]
  | ok program =>
    simp only [answer, hseed, List.map_nil, log_nil, runFile, hload, Seed.value, loadedRecord, log_debug,
      Option.isSome_none, Bool.or_false]

/-- **The runner tells how the program ended**: the output is what the engine put out, and a fault is the
one line on the error stream. -/
theorem runProgram_eq (fuel : Nat) (w : Surroundings) {port : Port} (hport : port.Uninterrupted)
    (program : Program) (n : Int) {e : Engine}
    (he : (Engine.start program port n false).after fuel = e) :
    runProgram fuel w port Level.warning.rank false none program n { files := w.files } =
      match e.status with
      | .running => { ended := .unfinished, files := w.files }
      | .halted => { ended := .status 0, stdout := [.bytes e.port.output], files := w.files }
      | .failed fault =>
        { ended := .status 1, stdout := [.bytes e.port.output]
          stderr := "Error! " ++ fault.message ++ "\n", files := w.files } := by
  have hsound := Engine.start_sound program port n false
  have hsteps : ∀ j < fuel, ((Engine.start program port n false).after j).step.2 ≠ some .interrupted :=
    fun j _ => Engine.step_after_uninterrupted (e := Engine.start program port n false) hport j
  have htrace : e.flush.trace = #[] := by
    rw [← he]
    exact (Engine.trace_after rfl fuel).1
  have houtput : e.flush.port.output = e.port.output := Endpoint.output_flush _
  have hthrough : heldUp? w (none : Option (List String)).isSome fuel (Engine.start program port n false)
      = none := by
    unfold heldUp?
    cases w.traceBarrier <;> rfl
  unfold runProgram
  simp only [hthrough, Engine.runToEnd_eq hsound hsteps rfl, he]
  cases hstatus : e.status with
  | running => rfl
  | halted =>
    have hflush : e.flush.status = .halted := hstatus
    simp [Engine.fault?, hstatus, hflush, Progress.collect, htrace, houtput, traceLines,
      Progress.finish, unlines]
  | failed fault =>
    simp [Engine.fault?, hstatus, Progress.collect, htrace, houtput, traceLines, failureRecord,
      Progress.fail, Progress.finish, unlines, Failure.message]

/-- A program that cannot be loaded ends the runner. -/
theorem fail_load {fault : LoadFault} (files : Files) (hnull : fault ≠ .nullByte) :
    Progress.fail { files } (.load fault) =
      { ended := .status 1, stderr := "Error! " ++ fault.message ++ "\n", files } := by
  simp [Progress.fail, hnull, Progress.finish, unlines, Failure.message]

end Run

/-! ### Commands of the debugger -/

namespace Debugger

open Options

theorem parse_load {file : String} (hfile : Text.begins "-" file = false) :
    parse loadSpec [file] = .ok { values := [("path", .text file)] } := by
  have hdashes : file ≠ "--" := by
    rintro rfl
    cases hfile
  have hwaiting : loadSpec.operands = [{ name := "path", arity := .one }] := rfl
  refine parse_of_parseFrom
    (mark_cons hdashes (markWord_of_undashed (by decide) hfile) rfl) ?_ rfl
  rw [hwaiting, parseFrom_operand (by simp) rfl hdashes rfl, parseFrom]
  rfl

/-- The line that loads a program does just that, whatever the name of the file. -/
theorem dispatch_load {fuel : Nat} {w : Surroundings} {s : Session} {file : String}
    (halias : s.aliases = []) :
    dispatch fuel w registry s ("load " ++ Text.quoteWord file) = load w s [file] := by
  have hplain : "load".toList.all Text.isPlain = true := by decide
  have hwords := commandWords_quoteWord (w := "load") (by decide) (List.all_eq_true.1 hplain) file
  have hline : "load" ++ " " ++ Text.quoteWord file = "load " ++ Text.quoteWord file := rfl
  rw [hline] at hwords
  have hresolve : s.resolve "load" = "load" := by simp [Session.resolve, halias]
  have hword : "load" ≠ parseErrorWord := by decide
  obtain ⟨command, hfind, haction⟩ :
      ∃ command, registry.find? "load" = some command ∧ command.action = .load := ⟨_, rfl, rfl⟩
  have hasked : asked registry s ("load " ++ Text.quoteWord file) = some (.load, [file]) := by
    simp only [asked, hwords, hresolve, if_neg hword, hfind, Option.map_some, haction]
  rw [dispatch_of_asked hasked, perform]

theorem asked_continue {s : Session} (hs : s.aliases = []) :
    asked registry s "continue" = some (.resume, []) := by
  have hwords : commandWords (Text.strip "continue") = ["continue"] := by decide
  have hresolve : s.resolve "continue" = "continue" := by simp [Session.resolve, hs]
  simp only [asked, hwords, hresolve]
  decide

/-- A program that cannot be loaded is refused. -/
theorem load_of_error {w : Surroundings} {s : Session} {file : String} {fault : LoadFault}
    (hfile : Text.begins "-" file = false) (hplain : (Path.ofString file).Plain)
    (hload : w.files.loadProgram (Path.ofString file) = .error fault) (hnull : fault ≠ .nullByte) :
    load w s [file] = .refused s fault.message := by
  have hname : Parsed.text? { values := [("path", .text file)] } "path" = some file := rfl
  simp only [load, parse_load hfile, hname, Option.getD_some, Path.expandHome_of_plain hplain, hload]

/-- A program that can be loaded is started on the port of the session. -/
theorem load_of_ok {w : Surroundings} {s : Session} {file : String} {program : Program} {port : Port}
    {n : Int} (hfile : Text.begins "-" file = false) (hplain : (Path.ofString file).Plain)
    (hload : w.files.loadProgram (Path.ofString file) = .ok program) (hjson : s.json = false)
    (hport : s.port? = some port) (hseed : s.seed.value w.clock = .ok n) :
    (load w s [file]).ended = .status 0 ∧
      (load w s [file]).text = s!"Loaded {file} ({program.chunkCount} chunk(s))" ++ "\n" ∧
      (load w s [file]).session =
        (s.adopt (Path.ofString file) program).withEngine (.start program port n false) := by
  have hname : Parsed.text? { values := [("path", .text file)] } "path" = some file := rfl
  have hreset := reset_of_loaded (s := s.adopt (Path.ofString file) program) rfl hport hseed
  simp only [load, parse_load hfile, hname, Option.getD_some, Path.expandHome_of_plain hplain, hload,
    hreset]
  refine ⟨rfl, ?_, rfl⟩
  simp [Reply.text, Reply.done, Report.render, Session.adopt, Session.withEngine, hjson]

/-- What `continue` does where there is no breakpoint. -/
theorem dispatch_continue {fuel : Nat} {w : Surroundings} {s : Session} {e : Engine}
    (halias : s.aliases = []) (hbreak : s.breakpoints = []) (he : s.engine = some e) :
    dispatch fuel w registry s "continue" = moved s (resumeFrom [] none fuel 0 e) := by
  have hparse : parse resumeSpec [] = .ok {} := parse_of_parseFrom rfl (by rw [parseFrom]; rfl) rfl
  have hblank : ¬ Parsed.isBlank {} "max" = true := by decide
  have hlimit : Parsed.int? {} "max" = none := rfl
  rw [dispatch_of_asked (asked_continue halias)]
  simp only [perform, goOn, hparse, Session.needEngine, he, if_neg hblank, hlimit, resume, hbreak]

/-- A stop is reported in words, with a status that says whether there was an error. -/
theorem moved_stopped {s : Session} {m : Move} {stop : Stop} (hjson : s.json = false)
    (h : m.verdict = .stopped stop) :
    (moved s m).ended = .status (if stop.failed then 1 else 0) ∧
      (moved s m).text =
        (if stop.failed then "error: " ++ stop.describe else stop.describe) ++ "\n" := by
  unfold moved
  simp only [h, Reply.text, Option.elim_some, hjson, Stop.report, true_and]
  split <;> simp [Report.render]

/-- **`continue` tells how the program ended.** -/
theorem continue_eq {fuel : Nat} {s : Session} {e last : Engine} (hjson : s.json = false)
    (hsteady : e.Steady) (hrun : e.status = .running) (hlast : e.after fuel = last) :
    (moved s (resumeFrom [] none fuel 0 e)).session.output = last.port.output ∧
      match last.status with
      | .running => (moved s (resumeFrom [] none fuel 0 e)).ended = .unfinished
      | .halted =>
        (moved s (resumeFrom [] none fuel 0 e)).ended = .status 0 ∧
          (moved s (resumeFrom [] none fuel 0 e)).text =
            s!"program halted after {(last.steps : Int)} chunk(s)" ++ "\n"
      | .failed fault =>
        (moved s (resumeFrom [] none fuel 0 e)).ended = .status 1 ∧
          (moved s (resumeFrom [] none fuel 0 e)).text =
            "error: " ++ (s!"stopped at chunk {last.current}: " ++ fault.message) ++ "\n" := by
  obtain ⟨hlike, hverdict⟩ := resumeFrom_unlimited fuel 0 hsteady hrun (Engine.Like.refl e)
  rw [hlast] at hlike hverdict
  generalize resumeFrom [] none fuel 0 e = m at hlike hverdict
  constructor
  · rw [moved_session]
    exact hlike.machine.port.output
  · -- the engine that was moved flushed more often than the bare one, but has the same status
    have hstatus' := hlike.status
    cases hstatus : last.status with
    | running =>
      rw [if_pos hstatus] at hverdict
      simp only [moved, hverdict]
    | halted =>
      rw [if_neg (by rw [hstatus]; simp)] at hverdict
      rw [hstatus] at hstatus'
      simp only [endVerdict, hstatus'] at hverdict
      obtain ⟨hended, htext⟩ := moved_stopped hjson hverdict
      rw [hended, htext]
      simp [stopAt, Stop.failed, Stop.describe, hlike.steps]
    | failed fault =>
      rw [if_neg (by rw [hstatus]; simp)] at hverdict
      rw [hstatus] at hstatus'
      simp only [endVerdict, hstatus'] at hverdict
      obtain ⟨hended, htext⟩ := moved_stopped hjson hverdict
      rw [hended, htext]
      simp [stopAt, Stop.failed, Stop.describe, hlike.current, fault.message_ne_empty]

end Debugger

/-! ### The debugger -/

namespace Debug

open Options Debugger

/-- The session that the debugger starts with. -/
def firstSession (source : Bytes) (n : Int) : Session :=
  freshSession (Port.ofStreams (some source) true) false (.number n)

theorem output_conclude (rank : Nat) (files : Files) (turns : List Turn) (ended : Ended) :
    (conclude rank files turns ended).output = turns.flatMap Turn.output := by
  simp [ToolResult.output, conclude, List.flatMap_assoc]

theorem printed_conclude (rank : Nat) (files : Files) (turns : List Turn) (ended : Ended) :
    (conclude rank files turns ended).printed = String.join (turns.map Turn.text) := by
  simp only [ToolResult.printed, conclude]
  induction turns with
  | nil => rfl
  | cons turn turns ih => simp [String.join_cons, ih]

section Serving

variable {fuel : Nat} {w : Surroundings} {home : String} {events : List PromptEvent} {argv : List String}
  {file input : String} {source : Bytes} {n : Int} {reply : Reply}

theorem openInput_of_read (file : String) (n : Int)
    (hinput : w.files.read (Path.ofString input) = .ok source) :
    ∃ place, openInput w (runValues file input n) = .ok (some (place, source)) := by
  have hname : (runValues file input n).text? "input" = some input := rfl
  cases hfind : w.files.find (Path.ofString input) with
  | error fault =>
    rw [Files.read, hfind] at hinput
    cases hinput
  | ok place =>
    refine ⟨place, ?_⟩
    simp only [openInput, hname, hinput, hfind, Files.failingAt, bind, Except.bind, pure, Except.pure]

theorem program_runValues (hfile : file ≠ "") :
    ((runValues file input n).text? "program").filter (· != "") = some file := by
  have hname : (runValues file input n).text? "program" = some file := rfl
  simp [hname, hfile]

theorem session_runValues (source : Bytes) :
    { freshPort := some (Port.ofStreams (some source) true)
      json := (runValues file input n).isOn "json"
      seed := .ofParsed (runValues file input n) } = firstSession source n := rfl

theorem answer_of_refused (hparse : parse spec argv = .ok (runValues file input n)) (hfile : file ≠ "")
    (hinput : w.files.read (Path.ofString input) = .ok source)
    (hload : dispatch fuel w registry (firstSession source n) ("load " ++ Text.quoteWord file) = reply)
    (hended : reply.ended ≠ .status 0) :
    (answer fuel w home argv events).result =
      conclude Level.info.rank w.files [Turn.ofReply (firstSession source n) reply] reply.ended := by
  obtain ⟨place, hopen⟩ := openInput_of_read file n hinput
  have hrank : askedRank .info (runValues file input n) = .ok Level.info.rank := rfl
  simp only [answer, hparse, hrank, hopen, program_runValues hfile, Option.map_some, session_runValues,
    oneLine, hload, List.nil_append]

theorem answer_of_loaded (hparse : parse spec argv = .ok (runValues file input n)) (hfile : file ≠ "")
    (hinput : w.files.read (Path.ofString input) = .ok source)
    (hload : dispatch fuel w registry (firstSession source n) ("load " ++ Text.quoteWord file) = reply)
    (hended : reply.ended = .status 0) :
    (answer fuel w home argv events).result =
      let (turns, ended) := runLines fuel w [some "continue"] reply.session
        [Turn.ofReply (firstSession source n) reply]
      conclude Level.info.rank w.files turns ended := by
  obtain ⟨place, hopen⟩ := openInput_of_read file n hinput
  have hrank : askedRank .info (runValues file input n) = .ok Level.info.rank := rfl
  have hcommands : (runValues file input n).texts "command" = [some "continue"] := rfl
  simp only [answer, hparse, hrank, hopen, program_runValues hfile, Option.map_some, session_runValues,
    oneLine, hload, hended, List.nil_append, serve, hcommands]

/-- A single command line is carried out, whatever it returns. -/
theorem runLines_single (line : String) (s : Session) (turns : List Turn)
    (h : dispatch fuel w registry s line = reply) :
    runLines fuel w [some line] s turns =
      (turns ++ [{ log := [⟨.debug, "xrf_dbg.cli", "running " ++ Text.quoted line⟩] }] ++
        [Turn.ofReply s reply], reply.ended) := by
  rw [runLines]
  simp only [oneLine, h]
  split
  · rename_i heq
    simp only [Prod.mk.injEq] at heq
    obtain ⟨-, rfl, hended⟩ := heq
    rw [runLines, hended]
  · rename_i heq
    cases heq
    rfl

/-- A program that cannot be loaded ends the debugger. -/
theorem answer_of_load_error (fuel : Nat) (home : String) (events : List PromptEvent) {fault : LoadFault}
    (hparse : parse spec argv = .ok (runValues file input n))
    (hname : file ≠ "") (hinput : w.files.read (Path.ofString input) = .ok source)
    (hfile : Text.begins "-" file = false) (hplain : (Path.ofString file).Plain)
    (hload : w.files.loadProgram (Path.ofString file) = .error fault) (hnull : fault ≠ .nullByte) :
    (answer fuel w home argv events).result.ended = .status 1 ∧
      (answer fuel w home argv events).result.output = [] ∧
      (answer fuel w home argv events).result.printed = "error: " ++ fault.message ++ "\n" := by
  have hreply := load_of_error (s := firstSession source n) hfile hplain hload hnull
  rw [← dispatch_load rfl] at hreply
  rw [answer_of_refused hparse hname hinput hreply (by simp [Reply.refused])]
  refine ⟨rfl, ?_, ?_⟩
  · simp [output_conclude, Turn.ofReply, Reply.refused]
  · simp [printed_conclude, Turn.ofReply, Reply.refused, Reply.text, Report.render, firstSession,
      freshSession]

/-- **The debugger tells how the program ended**, between what it says about the file and about the
end. -/
theorem answer_of_load_ok (fuel : Nat) (home : String) (events : List PromptEvent) {program : Program}
    {e : Engine}
    (hparse : parse spec argv = .ok (runValues file input n))
    (hname : file ≠ "") (hinput : w.files.read (Path.ofString input) = .ok source)
    (hfile : Text.begins "-" file = false) (hplain : (Path.ofString file).Plain)
    (hload : w.files.loadProgram (Path.ofString file) = .ok program)
    (he : (Engine.start program (Port.ofStreams (some source) true) n false).after fuel = e) :
    let result := (answer fuel w home argv events).result
    let opening := s!"Loaded {file} ({program.chunkCount} chunk(s))" ++ "\n"
    match e.status with
    | .running => result.ended = .unfinished
    | .halted =>
      result.ended = .status 0 ∧ result.output = e.port.output ∧
        result.printed = opening ++ (s!"program halted after {(e.steps : Int)} chunk(s)" ++ "\n")
    | .failed fault =>
      result.ended = .status 1 ∧ result.output = e.port.output ∧
        result.printed = opening ++
          ("error: " ++ (s!"stopped at chunk {e.current}: " ++ fault.message) ++ "\n") := by
  have hsteady : (Engine.start program (Port.ofStreams (some source) true) n false).Steady :=
    ⟨Engine.start_placed program _ n false, by
      simp [Engine.start, Engine.port, Port.Uninterrupted, Port.ofStreams]⟩
  have hloaded : dispatch fuel w registry (firstSession source n) ("load " ++ Text.quoteWord file) =
      load w (firstSession source n) [file] := dispatch_load rfl
  obtain ⟨hended, htext, hsession⟩ :=
    load_of_ok (s := firstSession source n) hfile hplain hload rfl rfl rfl
  generalize load w (firstSession source n) [file] = loaded at hloaded hended htext hsession
  have hcontinue : dispatch fuel w registry loaded.session "continue" = moved loaded.session
      (resumeFrom [] none fuel 0 (.start program (Port.ofStreams (some source) true) n false)) :=
    dispatch_continue (by rw [hsession]; rfl) (by rw [hsession]; rfl) (by rw [hsession]; rfl)
  have hjson : loaded.session.json = false := by
    rw [hsession]
    rfl
  -- loading puts nothing out, so all bytes of the program belong to the turn of `continue`
  have hfirst : loaded.session.output = [] := by
    rw [hsession]
    rfl
  obtain ⟨houtput, hend⟩ := continue_eq hjson hsteady rfl he
  rw [answer_of_loaded hparse hname hinput hloaded hended, runLines_single "continue" _ _ hcontinue]
  generalize moved _ _ = reply at houtput hend
  simp only [output_conclude, printed_conclude]
  simp only [conclude, Turn.ofReply, htext, houtput, hfirst, List.cons_append, List.nil_append,
    List.flatMap_cons, List.flatMap_nil, List.map_cons, List.map_nil, String.join_cons, String.join_nil,
    List.drop_nil, List.length_nil, List.drop_zero, List.append_nil, String.empty_append,
    String.append_empty]
  cases hstatus : e.status with
  | running =>
    rw [hstatus] at hend
    simp only [hend]
  | halted =>
    rw [hstatus] at hend
    simp only [hend.1, hend.2, and_self]
  | failed fault =>
    rw [hstatus] at hend
    simp only [hend.1, hend.2, and_self]

end Serving

end Debug

/-! ### Both tools -/

/-- Two tools tell the same end of a program. Both return the status, and the program has put out the same
bytes. The runner prints nothing else, and its complaint is on the error stream; the debugger prints what it
says at the start and at the end. How the text that is printed mixes with the bytes is up to the stream. -/
structure SameEnd (run debug : ToolResult) (code : Nat) (output : Bytes)
    (complaint opening closing : String) : Prop where
  run_ended : run.ended = .status code
  debug_ended : debug.ended = .status code
  run_output : run.output = output
  debug_output : debug.output = output
  run_printed : run.printed = ""
  debug_printed : debug.printed = opening ++ closing
  run_stderr : run.stderr = complaint

theorem Files.loadProgram_congr {f f' : Files} {p : Path} (h : f'.read p = f.read p) :
    f'.loadProgram p = f.loadProgram p := by
  rw [loadProgram, loadProgram, h]

/-- **The runner and the debugger agree.** Let a file have the same contents for both, let its path be a
plain one, and let the debugger be told to read from a file what the runner finds as its input. Whatever
seed the runner accepts, both refuse to load the program for the same reason, or both end as the engine
ends that is started with that program, input and seed: with the status 0 and no complaint if it has
halted, with the status 1 and its fault if it has failed. The bytes that the program has put out are the
same. A program that still runs has not ended for either. The debugger asks for the home directory of its
user in any case, so it has to be known. -/
theorem tools_agree (fuel : Nat) (w w' : Surroundings) (events : List Debugger.PromptEvent)
    (file seed input home : String) (source : Bytes) (hname : file ≠ "")
    (hfile : Text.begins "-" file = false) (hnull : '\x00' ∉ file.toList)
    (hplain : (Path.ofString file).Plain) (hseed : (Run.request ["--seed", seed, file]).isOk)
    (hinput : (Options.parse Debug.spec ["--input", input]).isOk)
    (hhome : w'.homes.find "" = .ok home)
    (hsame : w'.files.read (Path.ofString file) = w.files.read (Path.ofString file))
    (hstdin : w.stdin = .opened source) (hbytes : w'.files.read (Path.ofString input) = .ok source) :
    let run := Run.tool fuel w ["--seed", seed, file]
    let debug :=
      (Debug.tool fuel w' [file, "--seed", seed, "--input", input, "-c", "continue"] events).result
    (∀ fault, w.files.loadProgram (Path.ofString file) = .error fault →
      SameEnd run debug 1 [] ("Error! " ++ fault.message ++ "\n") ""
        ("error: " ++ fault.message ++ "\n")) ∧
    ∀ program, w.files.loadProgram (Path.ofString file) = .ok program →
      ∃ n, Text.readDecimal seed = some n ∧ ∀ e,
        (Engine.start program (Port.ofStreams (some source) true) n false).after fuel = e →
        let opening := s!"Loaded {file} ({program.chunkCount} chunk(s))" ++ "\n"
        (e.status = .running → run.ended = .unfinished ∧ debug.ended = .unfinished) ∧
        (e.status = .halted →
          SameEnd run debug 0 e.port.output "" opening
            (s!"program halted after {(e.steps : Int)} chunk(s)" ++ "\n")) ∧
        ∀ fault, e.status = .failed fault →
          SameEnd run debug 1 e.port.output ("Error! " ++ fault.message ++ "\n") opening
            ("error: " ++ (s!"stopped at chunk {e.current}: " ++ fault.message) ++ "\n") := by
  intro run debug
  obtain ⟨q, hseed⟩ := Options.exists_of_isOk hseed
  obtain ⟨p, hinput⟩ := Options.exists_of_isOk hinput
  obtain ⟨hdashes, hmark, n, hn, -⟩ := Run.request_of_seed hfile hseed
  obtain ⟨hdashes', hmark'⟩ := Debug.markWord_of_input hinput
  have hparse := Debug.parse_of_seed hfile hdashes (Debug.markWord_of_seed hn hmark) hn hdashes' hmark'
  have hrun : run = Run.answer fuel w (Port.ofStreams (some source) true) ["--seed", seed, file] := by
    simp only [run, Run.tool, hstdin, Run.inputPort]
  rw [Run.answer_of_seed hfile hseed hn] at hrun
  have hdebug : debug = (Debug.answer fuel w' home
      [file, "--seed", seed, "--input", input, "-c", "continue"] events).result := by
    simp only [debug, Debug.tool, hhome]
  constructor
  · intro fault hload
    -- a null character would break both tools off instead of being reported
    have hfault : fault ≠ .nullByte := by
      rintro rfl
      exact Files.loadProgram_ne_nullByte (Path.hasNull_ofString hnull) hload
    obtain ⟨hended, houtput, hprinted⟩ := Debug.answer_of_load_error fuel home events hparse hname hbytes
      hfile hplain ((Files.loadProgram_congr hsame).trans hload) hfault
    rw [← hdebug] at hended houtput hprinted
    simp only [hload, Run.fail_load w.files hfault] at hrun
    rw [hrun]
    exact ⟨rfl, hended, rfl, houtput, rfl, by rw [hprinted, String.empty_append], rfl⟩
  · intro program hload
    refine ⟨n, hn, fun e he => ?_⟩
    have hend := Debug.answer_of_load_ok fuel home events hparse hname hbytes hfile hplain
      ((Files.loadProgram_congr hsame).trans hload) he
    simp only [← hdebug] at hend
    have hport : (Port.ofStreams (some source) true).Uninterrupted := by
      simp [Port.Uninterrupted, Port.ofStreams]
    simp only [hload, Run.runProgram_eq fuel w hport program n he] at hrun
    refine ⟨fun hstatus => ?_, fun hstatus => ?_, fun fault hstatus => ?_⟩
    all_goals
      simp only [hstatus] at hrun hend
      rw [hrun]
    · exact ⟨rfl, hend⟩
    · exact ⟨rfl, hend.1, List.append_nil _, hend.2.1, rfl, hend.2.2, rfl⟩
    · exact ⟨rfl, hend.1, List.append_nil _, hend.2.1, rfl, hend.2.2, rfl⟩

/-- Surroundings with a program under a name and with the standard input in a file. -/
def withProgram (name text : String) (bytes : Bytes) : Surroundings :=
  { files := { nodes := [([name], .file (encodeText text)), (["input"], .file bytes)] }
    stdin := .opened bytes }

/-- A program that puts a byte out and then fails, with a seed that begins with a dash. -/
theorem tools_agree_failing :
    SameEnd (Run.tool 3 (withProgram "p" "01211" [104]) ["--seed", "-5", "p"])
      (Debug.tool 3 (withProgram "p" "01211" [104])
        ["p", "--seed", "-5", "--input", "input", "-c", "continue"] []).result
      1 [104] "Error! Cannot output nonexistent value!\n" "Loaded p (1 chunk(s))\n"
      "error: stopped at chunk 0: Cannot output nonexistent value!\n" := by
  have hagree := tools_agree 3 (withProgram "p" "01211" [104]) (withProgram "p" "01211" [104]) []
    "p" "-5" "input" "/" [104] (by decide) (by decide) (by decide) (by decide) (by decide +kernel)
    (by decide +kernel) rfl rfl rfl (by decide +kernel)
  have hend : ((withProgram "p" "01211" [104]).files.loadProgram (Path.ofString "p")).toOption.map
      (fun program =>
        let e := (Engine.start program (Port.ofStreams (some [104]) true) (-5) false).after 3
        (program.chunkCount, e.status, e.port.output, e.current)) =
      some (1, .failed (.underflow ⟨.output, 0⟩ .write 0), [104], 0) := by decide +kernel
  have hn : Text.readDecimal "-5" = some (-5) := by decide +kernel
  cases hload : (withProgram "p" "01211" [104]).files.loadProgram (Path.ofString "p") with
  | error fault =>
    rw [hload] at hend
    cases hend
  | ok program =>
    rw [hload] at hend
    simp only [Except.toOption, Option.map_some, Option.some.injEq, Prod.mk.injEq] at hend
    obtain ⟨hcount, hstatus, houtput, hcurrent⟩ := hend
    obtain ⟨n, hn', hagree⟩ := hagree.2 program hload
    rw [hn] at hn'
    cases hn'
    have hsame := (hagree _ rfl).2.2 _ hstatus
    simp only [withProgram] at hsame houtput hcurrent
    rw [houtput, hcurrent, hcount] at hsame
    exact hsame

/-- A file whose name is a tilde, written with a dot in front of it. The runner runs the program; the
debugger finds no program at the home directory. -/
theorem tools_disagree_tilde :
    let w := { withProgram "~" "FFFFB" [] with homes := { own := some "home" } }
    Text.begins "-" "./~" = false ∧ Text.begins "~" "./~" = false ∧ '\x00' ∉ "./~".toList ∧
    (Run.request ["--seed", "0", "./~"]).isOk ∧
    (Options.parse Debug.spec ["--input", "input"]).isOk ∧
    w.stdin = .opened [] ∧ w.files.read (Path.ofString "input") = .ok [] ∧
    (Run.tool 1 w ["--seed", "0", "./~"]).ended = .status 0 ∧
    (Debug.tool 1 w ["./~", "--seed", "0", "--input", "input", "-c", "continue"] []).result.ended =
      .status 1 := by
  decide +kernel

end ChunkMachine
