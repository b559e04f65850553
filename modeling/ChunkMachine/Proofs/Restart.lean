import ChunkMachine.Proofs.Coherence
import ChunkMachine.Proofs.Interchange

/-!
# A restart forgets everything but the port

A restart makes a new engine for the program that is loaded. The port is taken over from the engine before,
so the new one reads on where that one stopped and writes after what that one wrote. Everything else is
made anew: the stack, the flags, the generator, the counts and the recorded fault.

That nothing else is left of what was done before is shown by two comparisons. The engine after a restart
is the engine of the load with another port. And it takes the same course as an engine that was started on
a fresh port with the input that is left: lines that step and resume stop alike, for all that a program can
tell of a port is the input that is left (`ChunkMachine.Proofs.Interchange`).

## What is proved

* `singleStep_alike`, `stepMany_alike`, `resumeFrom_alike`: the loops of the debugger treat engines on ports
  that cannot be told apart alike.
* `sessionAfter_loaded`: lines that load no other program keep what a restart takes.
* `reset_forgets`: what a restart makes, and how the program goes on from there.
-/

namespace ChunkMachine

/-! ### Fresh ports and engines -/

namespace Port

/-- A fresh port of the same kind on the input that is left. The reads that fail are still to fail. -/
def renewed (p : Port) : Port :=
  let fresh := match p.endpoint with
    | .buffer unread _ => ofBuffer unread
    | .stream reader writer => ofStreams (reader.map Source.unread) writer.isSome
  { fresh with faults := p.faults }

/-- A port goes on where a fresh one on its input begins. -/
theorem continues_renewed (p : Port) : p.Continues p.output p.renewed := by
  rcases p with ⟨⟨input, written⟩ | ⟨_ | source, _ | sink⟩, faults⟩ <;>
    exact ⟨⟨rfl, rfl⟩, rfl, (List.append_nil _).symm⟩

end Port

/-- The engine is as at the start of the program: nothing was executed and no fault is recorded. -/
structure Engine.Pristine (program : Program) (seed : Int) (e : Engine) : Prop where
  runs : e.code.program = program
  size_visited : e.code.visited.size = program.chunkCount
  not_visited : ∀ flag ∈ e.code.visited, flag = false
  status : e.status = .running
  fault : e.fault? = none
  current : e.current = 0
  steps : e.steps = 0
  stack : e.stack = [0]
  generator : e.machine.generator = Generator.ofSeed seed

theorem Engine.start_pristine (program : Program) (port : Port) (seed : Int) (tracing : Bool) :
    (Engine.start program port seed tracing).Pristine program seed where
  runs := rfl
  size_visited := by simp [start, Code.ofProgram]
  not_visited flag hflag := by
    simp only [start, Code.ofProgram, Array.mem_replicate] at hflag
    exact hflag.2
  status := rfl
  fault := rfl
  current := rfl
  steps := rfl
  stack := rfl
  generator := rfl

namespace Debugger

open Options

/-! ### The loops -/

/-- Moves of which nothing but the ports of the engines can differ. -/
structure Move.Alike (S : Port → Port → Prop) (m m' : Move) : Prop where
  engine : m.engine.Like S m'.engine
  verdict : m.verdict = m'.verdict
  log : m.log = m'.log

section Loops

variable {S : Port → Port → Prop}

theorem stopAt_alike {e e' : Engine} (h : e.Like S e') (reason : StopReason) (error : Option String) :
    stopAt reason e error = stopAt reason e' error := by
  rw [stopAt, stopAt, h.current, h.steps]

theorem endVerdict_alike {e e' : Engine} (h : e.Like S e') : endVerdict e = endVerdict e' := by
  unfold endVerdict
  rw [← h.status]
  cases e.status with
  | running => rfl
  | halted => exact congrArg Verdict.stopped (stopAt_alike h _ _)
  | failed fault => exact congrArg Verdict.stopped (stopAt_alike h _ _)

theorem failureLog_alike {e e' : Engine} (h : e.Like S e') (fault : Fault) :
    failureLog e fault = failureLog e' fault := by
  simp only [failureLog, failureRecord, h.current, h.steps]

theorem singleStep_alike (hS : Port.FullSimulation S) {e e' : Engine} (h : e.Like S e') :
    (singleStep e).Alike S (singleStep e') := by
  have hrunning : e.running = e'.running := by rw [Engine.running, Engine.running, h.status]
  obtain ⟨hlike, habort⟩ := Engine.step_like hS.toSimulation h
  unfold singleStep
  rw [← hrunning]
  split
  · rcases he : e.step with ⟨e₁, abort⟩
    rcases he' : e'.step with ⟨e₁', abort'⟩
    rw [he, he'] at hlike habort
    simp only at hlike habort
    subst habort
    have hflushed := Engine.flush_like_flush hS hlike
    rcases abort with _ | (fault | _ | missing)
    · exact ⟨hflushed, endVerdict_alike hflushed, rfl⟩
    · exact ⟨hflushed, congrArg Verdict.stopped (stopAt_alike hflushed _ _),
        failureLog_alike hflushed fault⟩
    · exact ⟨hflushed, rfl, rfl⟩
    · exact ⟨hflushed, rfl, rfl⟩
  · exact ⟨h, endVerdict_alike h, rfl⟩

theorem stepMany_alike (hS : Port.FullSimulation S) (count : Nat) : ∀ {e e' : Engine}, e.Like S e' →
    (stepMany count e).Alike S (stepMany count e') := by
  induction count with
  | zero => intro e e' h; exact ⟨h, congrArg Verdict.stopped (stopAt_alike h _ _), rfl⟩
  | succ count ih =>
    intro e e' h
    have hfirst := singleStep_alike hS h
    simp only [stepMany]
    rw [← hfirst.verdict]
    cases (singleStep e).verdict with
    | going => exact ih hfirst.engine
    | stopped | escaped | unfinished => exact hfirst

theorem resumeFrom_alike (hS : Port.FullSimulation S) (breakpoints : List Int) (limit : Option Int)
    (fuel : Nat) : ∀ (executed : Nat) {e e' : Engine}, e.Like S e' →
      (resumeFrom breakpoints limit fuel executed e).Alike S
        (resumeFrom breakpoints limit fuel executed e') := by
  induction fuel with
  | zero =>
    intro executed e e' h
    rw [resumeFrom, resumeFrom, ← h.current]
    split
    · exact ⟨h, congrArg Verdict.stopped (stopAt_alike h _ _), rfl⟩
    · split
      · exact ⟨h, congrArg Verdict.stopped (stopAt_alike h _ _), rfl⟩
      · exact ⟨h, rfl, rfl⟩
  | succ fuel ih =>
    intro executed e e' h
    have hfirst := singleStep_alike hS h
    rw [resumeFrom, resumeFrom, ← h.current]
    split
    · exact ⟨h, congrArg Verdict.stopped (stopAt_alike h _ _), rfl⟩
    · split
      · exact ⟨h, congrArg Verdict.stopped (stopAt_alike h _ _), rfl⟩
      · simp only
        rw [← hfirst.verdict]
        cases (singleStep e).verdict with
        | going => exact ih (executed + 1) hfirst.engine
        | stopped | escaped | unfinished => exact hfirst

end Loops

/-! ### Lines that move the engine -/

/-- Does the entry step or resume the program? -/
def Entry.drives (r : Registry) (s : Session) (x : Entry) : Bool :=
  match asked r s x.line with
  | some (.step, _) | some (.resume, _) => true
  | _ => false

/-- Does each of the entries step or resume the program when it is its turn? -/
def allDrive (r : Registry) : List Entry → Session → Bool
  | [], _ => true
  | x :: rest, s => x.drives r s && allDrive r rest (x.reply r s).session

/-- How each of the entries ends, and what it reports. -/
def answers (r : Registry) : List Entry → Session → List (Ended × Option Report)
  | [], _ => []
  | x :: rest, s =>
    ((x.reply r s).ended, (x.reply r s).report) :: answers r rest (x.reply r s).session

/-- Sessions of which nothing but the ports of the engines can differ. -/
def Session.Alike (S : Port → Port → Prop) (s s' : Session) : Prop :=
  ∃ e e', s.engine = some e ∧ s' = { s with engine := some e' } ∧ e.Like S e'

/-- Replies of which nothing but the ports of the engines can differ. -/
structure Reply.Alike (S : Port → Port → Prop) (reply reply' : Reply) : Prop where
  session : reply.session.Alike S reply'.session
  ended : reply.ended = reply'.ended
  report : reply.report = reply'.report

section Lines

variable {S : Port → Port → Prop} {s s' : Session}

theorem misused_alike (h : s.Alike S s') (spec : Spec) (refusal : Refusal) :
    (Reply.misused s spec refusal).Alike S (Reply.misused s' spec refusal) := by
  cases refusal <;> exact ⟨h, rfl, rfl⟩

theorem moved_alike {e' : Engine} (hs' : s' = { s with engine := some e' }) {m m' : Move}
    (h : m.Alike S m') : (moved s m).Alike S (moved s' m') := by
  subst hs'
  have hsession : Session.Alike S { s with engine := some m.engine }
      { s with engine := some m'.engine } := ⟨m.engine, m'.engine, rfl, rfl, h.engine⟩
  unfold moved
  rw [← h.verdict, ← h.log]
  cases m.verdict with
  | stopped stop => exact ⟨hsession, rfl, rfl⟩
  | escaped cause => exact ⟨hsession, rfl, rfl⟩
  | going | unfinished => exact ⟨hsession, rfl, rfl⟩

theorem step_alike (hS : Port.FullSimulation S) (h : s.Alike S s') (words : List String) :
    (step s words).Alike S (step s' words) := by
  have h₀ := h
  obtain ⟨e, e', he, hs', hlike⟩ := h
  have he' : s'.engine = some e' := by rw [hs']
  unfold step
  cases parse stepSpec words with
  | error refusal => exact misused_alike h₀ _ _
  | ok p =>
    simp only [Session.needEngine, he, he']
    exact moved_alike hs' (stepMany_alike hS _ hlike)

theorem goOn_alike (hS : Port.FullSimulation S) (h : s.Alike S s') (fuel : Nat)
    (words : List String) : (goOn fuel s words).Alike S (goOn fuel s' words) := by
  have h₀ := h
  obtain ⟨e, e', he, hs', hlike⟩ := h
  have he' : s'.engine = some e' := by rw [hs']
  have hbreakpoints : s'.breakpoints = s.breakpoints := by rw [hs']
  unfold goOn
  cases parse resumeSpec words with
  | error refusal => exact misused_alike h₀ _ _
  | ok p =>
    simp only [Session.needEngine, he, he', hbreakpoints]
    split
    · exact ⟨h₀, rfl, rfl⟩
    · exact moved_alike hs' (resumeFrom_alike hS _ _ fuel 0 hlike)

theorem Session.Alike.aliases (h : s.Alike S s') : s'.aliases = s.aliases := by
  obtain ⟨_, _, _, rfl, _⟩ := h
  rfl

/-- A line that steps or resumes does the same in sessions that differ in the ports of their engines. -/
theorem reply_alike (hS : Port.FullSimulation S) {r : Registry} {x : Entry} (h : s.Alike S s')
    (hdrives : x.drives r s = true) : (x.reply r s).Alike S (x.reply r s') := by
  have hasked' := asked_congr h.aliases r x.line
  unfold Entry.reply
  cases hasked : asked r s x.line with
  | none => simp [Entry.drives, hasked] at hdrives
  | some request =>
    obtain ⟨action, words⟩ := request
    rw [hasked] at hasked'
    rw [dispatch_of_asked hasked, dispatch_of_asked hasked']
    cases action with
    | step => exact step_alike hS h words
    | resume => exact goOn_alike hS h x.fuel words
    | help | load | reset | breakpoints | stack | info | listing | aliases | exit | missing =>
      simp [Entry.drives, hasked] at hdrives

/-- **Lines that step and resume take the same course** in sessions that differ in the ports of their
engines. -/
theorem sessionAfter_alike (hS : Port.FullSimulation S) {r : Registry} (entries : List Entry) :
    ∀ {s s' : Session}, s.Alike S s' → allDrive r entries s = true →
      (sessionAfter r entries s).Alike S (sessionAfter r entries s') ∧
        answers r entries s = answers r entries s' := by
  induction entries with
  | nil => intro s s' h _; exact ⟨h, rfl⟩
  | cons x rest ih =>
    intro s s' h hdrive
    obtain ⟨hfirst, hrest⟩ := Bool.and_eq_true_iff.1 hdrive
    have hreply := reply_alike hS h hfirst
    obtain ⟨hsession, hanswers⟩ := ih hreply.session hrest
    refine ⟨hsession, ?_⟩
    rw [answers, answers, hreply.ended, hreply.report, hanswers]

end Lines

/-! ### What a restart takes -/

/-- Does the entry keep the program? A line that loads must load the same program again, or fail. -/
def Entry.keepsProgram (r : Registry) (s : Session) (x : Entry) : Bool :=
  match asked r s x.line with
  | some (.load, _) => (x.reply r s).session.program = s.program
  | _ => true

/-- Does each of the entries keep the program when it is its turn? -/
def allKeepProgram (r : Registry) : List Entry → Session → Bool
  | [], _ => true
  | x :: rest, s => x.keepsProgram r s && allKeepProgram r rest (x.reply r s).session

/-- The session holds the program, a port and a fixed seed. -/
structure Session.Loaded (program : Program) (n : Int) (s : Session) : Prop where
  program_eq : s.program = some program
  port : s.port?.isSome
  seed : s.seed = .number n

/-- Lines other than those that load keep the program. -/
theorem program_of_not_load {r : Registry} {s : Session} {x : Entry}
    (h : ∀ words, asked r s x.line ≠ some (.load, words)) :
    (x.reply r s).session.program = s.program := by
  unfold Entry.reply
  cases hasked : asked r s x.line with
  | none => rw [dispatch_of_not_asked hasked]
  | some request =>
    obtain ⟨action, words⟩ := request
    have hframe := perform_frame x.fuel x.surroundings r s words action
    rw [dispatch_of_asked hasked]
    cases action with
    | load => exact absurd hasked (h words)
    | reset =>
      simp only [perform, reset]
      cases hreset : s.reset x.surroundings.clock with
      | error fault => simp
      | ok result =>
        obtain ⟨program, _, _, hprogram, -, -, he, hs'⟩ := reset_eq_ok hreset
        simp only [session_writing, session_done, hs', hprogram]
        simp [he, Session.program, Engine.start, Code.ofProgram]
    | step =>
      cases he : s.engine with
      | none =>
        simp only [perform, step, Session.needEngine, he]
        split <;> simp
      | some e =>
        rw [perform, step_session he]
        exact program_moved he (steppedEngine_reaches words e)
    | resume =>
      cases he : s.engine with
      | none =>
        simp only [perform, goOn, Session.needEngine, he]
        split <;> simp
      | some e =>
        rw [perform, goOn_session he]
        exact program_moved he (resumedEngine_reaches _ _ words e)
    | help | breakpoints | stack | info | listing | aliases | exit | missing =>
      obtain ⟨b, a, hsession⟩ := hframe rfl
      rw [hsession]
      rfl

/-- No line takes the port away. -/
theorem turns_port {r : Registry} {s s' : Session} {x : Entry} (h : Turns r s x s')
    (hport : s.port?.isSome) : s'.port?.isSome := by
  cases h with
  | same | cleared | renamed | adopted => exact hport
  | added _ _ hadd =>
    obtain ⟨b, rfl⟩ := addBreakpoint_session hadd
    exact hport
  | loaded hreset | restarted hreset =>
    obtain ⟨_, _, _, -, -, -, -, rfl⟩ := reset_eq_ok hreset
    rfl
  | uncovered => rwa [Session.port?_resetVisited]
  | moved => simp [Session.port?]

theorem reply_loaded {r : Registry} {s : Session} {x : Entry} {program : Program} {n : Int}
    (h : s.Loaded program n) (hkeeps : x.keepsProgram r s = true) :
    (x.reply r s).session.Loaded program n := by
  have hturns := reply_turns r s x
  refine ⟨?_, turns_port hturns h.port, (turns_setup hturns).2.trans h.seed⟩
  by_cases hload : ∃ words, asked r s x.line = some (.load, words)
  · obtain ⟨words, hasked⟩ := hload
    simp only [Entry.keepsProgram, hasked, decide_eq_true_eq] at hkeeps
    exact hkeeps.trans h.program_eq
  · rw [program_of_not_load fun words hasked => hload ⟨words, hasked⟩]
    exact h.program_eq

/-- **Lines that load no other program keep what a restart takes.** -/
theorem sessionAfter_loaded {r : Registry} {program : Program} {n : Int} (entries : List Entry) :
    ∀ {s : Session}, s.Loaded program n → allKeepProgram r entries s = true →
      (sessionAfter r entries s).Loaded program n := by
  induction entries with
  | nil => intro s h _; exact h
  | cons x rest ih =>
    intro s h hkeep
    obtain ⟨hfirst, hrest⟩ := Bool.and_eq_true_iff.1 hkeep
    exact ih (reply_loaded h hfirst) hrest

/-- A line that restarts makes a fresh engine for the program, on the port of the session. It succeeds if
it can tell the seed or need not. -/
theorem reply_restart {r : Registry} {s : Session} {x : Entry} {words : List String}
    {program : Program} {n : Int} {port : Port} (hasked : asked r s x.line = some (.reset, words))
    (h : s.Loaded program n) (hport : s.port? = some port) :
    (s.json = false ∨ Text.writable n = true → (x.reply r s).ended = .status 0) ∧
      (x.reply r s).session = s.withEngine (.start program port n false) := by
  have hseed : s.seed.value x.surroundings.clock = .ok n := by rw [h.seed]; rfl
  have hreset := reset_of_loaded h.program_eq hport hseed
  have hreply : x.reply r s = reset x.surroundings s := dispatch_of_asked hasked
  rw [hreply, reset, hreset]
  refine ⟨fun htold => ?_, by simp⟩
  rcases htold with hplain | hshort
  · simp [Reply.writing, Session.withEngine, hplain, Reply.done]
  · have hseed : (Engine.start program port n false).seed = n := rfl
    cases hjson : s.json <;> simp [Reply.writing, Session.withEngine, hjson, hseed, hshort, Reply.done]

/-! ### Restarting -/

/-- A reply that restarted the program as the engine `e₀` was started, on another port. The program goes
on as it would on a fresh port with the input that is left: whatever lines step and resume it, each ends
and reports the same, and afterwards the engines agree in all but that the one of the reply has its
output after what was put out before. -/
structure Reply.Restarts (r : Registry) (program : Program) (n : Int) (e₀ : Engine) (port : Port)
    (reply : Reply) : Prop where
  /-- It succeeds, unless it has to tell a seed that is too long to be written. -/
  ended : reply.session.json = false ∨ Text.writable n = true → reply.ended = .status 0
  engine : reply.session.engine = some (e₀.mapPort fun _ => port)
  course : ∀ entries, allDrive r entries reply.session = true →
    answers r entries reply.session =
      answers r entries
        { reply.session with engine := some (.start program port.renewed n false) } ∧
    (sessionAfter r entries reply.session).Alike (Port.Continues port.output)
      (sessionAfter r entries
        { reply.session with engine := some (.start program port.renewed n false) })

/-- **A restart forgets everything but the port.** Let a line load a program with success in a session with
a port and a fixed seed. Whatever lines follow that load no other program, and wherever they leave the
machine, a restart after them gives the engine that the load gave, but for the port, which is the one that
the lines left. From there the program goes on as it would on a fresh port with the input that is left. -/
theorem reset_forgets (r : Registry) {s₀ : Session} {port₀ : Port} {n : Int}
    (hport : s₀.port? = some port₀) (hseed : s₀.seed = .number n) (first : Entry)
    {words : List String} (hasked : asked r s₀ first.line = some (.load, words))
    (hloaded : (first.reply r s₀).ended = .status 0) :
    ∃ program e₀,
      (first.reply r s₀).session.engine = some e₀ ∧ e₀.Pristine program n ∧ e₀.port = port₀ ∧
      ∀ (entries : List Entry) (again : Entry) (arguments : List String),
        allKeepProgram r entries (first.reply r s₀).session = true →
        asked r (sessionAfter r entries (first.reply r s₀).session) again.line =
          some (.reset, arguments) →
        ∃ port, (sessionAfter r entries (first.reply r s₀).session).port? = some port ∧
          (again.reply r (sessionAfter r entries (first.reply r s₀).session)).Restarts r program n e₀
            port := by
  have hreply : first.reply r s₀ = load first.surroundings s₀ words := dispatch_of_asked hasked
  rw [hreply] at hloaded ⊢
  obtain ⟨path, program, n', -, hn', hsession⟩ := load_succeeds hport hloaded
  have hn : n = n' := by
    rw [hseed] at hn'
    exact Except.ok.inj hn'
  subst hn
  have hstart : (load first.surroundings s₀ words).session.Loaded program n := by
    rw [hsession]
    exact ⟨rfl, rfl, hseed⟩
  refine ⟨program, .start program port₀ n false, congrArg Session.engine hsession,
    Engine.start_pristine _ _ _ _, rfl, ?_⟩
  intro entries again arguments hkeep hreset
  have hlater := sessionAfter_loaded entries hstart hkeep
  obtain ⟨port, hport'⟩ := Option.isSome_iff_exists.1 hlater.port
  obtain ⟨hended, hrestarted⟩ := reply_restart hreset hlater hport'
  refine ⟨port, hport', ?_, congrArg Session.engine hrestarted, fun more hdrive => ?_⟩
  · rw [hrestarted]
    exact hended
  have halike : Session.Alike (Port.Continues port.output)
      (again.reply r (sessionAfter r entries (load first.surroundings s₀ words).session)).session
      { (again.reply r (sessionAfter r entries
          (load first.surroundings s₀ words).session)).session with
        engine := some (.start program port.renewed n false) } := by
    refine ⟨.start program port n false, _, congrArg Session.engine hrestarted, rfl, ?_⟩
    exact Engine.start_like program n false port.continues_renewed
  exact (sessionAfter_alike (Port.continues_simulation _) more halike hdrive).symm

/-- A program whose only chunk puts out a byte of the input and the word below it, and then fails for want
of words. -/
def overdrawn : Program := ⟨#[#v[.read, .write, .write, .drop, .nop]], by simp⟩

/-- Lines that are entered where there is one file, which holds the program. -/
def overdrawing (line : String) : Entry :=
  ⟨line, { files := { nodes := [(["p"], .file (encodeText "0112F"))] } }, 9⟩

/-- The session in which the program has been loaded, with two bytes of input. -/
def overdrawnLoaded : Session :=
  ((overdrawing "load p").reply registry
    (freshSession (Port.ofBuffer [97, 98]) false (.number 5))).session

/-- The session in which the program has failed, with one byte of the input left. -/
def overdrawnFailed : Session := sessionAfter registry [overdrawing "continue"] overdrawnLoaded

/-- The session in which the program has been restarted. -/
def overdrawnRestarted : Session := ((overdrawing "reset").reply registry overdrawnFailed).session

/-- A program that failed is restarted after its first byte. It starts with the stack that it was loaded
with, and then it reports what it reports when its input is the second byte, and puts the same out after
what was put out before. -/
theorem reset_forgets_failed :
    overdrawnFailed.port? = some ⟨.buffer [98] [0, 97], []⟩ ∧
    (∃ e, overdrawnRestarted.engine = some e ∧ e.stack = [0] ∧ e.fault? = none) ∧
    answers registry [overdrawing "step"] overdrawnRestarted =
      answers registry [overdrawing "step"]
        { overdrawnRestarted with engine := some (.start overdrawn (.ofBuffer [98]) 5 false) } ∧
    ∃ e e', (sessionAfter registry [overdrawing "step"] overdrawnRestarted).engine = some e ∧
      (sessionAfter registry [overdrawing "step"]
        { overdrawnRestarted with
          engine := some (.start overdrawn (.ofBuffer [98]) 5 false) }).engine = some e' ∧
      e.port.output = [97, 0] ++ e'.port.output := by
  have hasked : asked registry (freshSession (Port.ofBuffer [97, 98]) false (.number 5))
      (overdrawing "load p").line = some (.load, ["p"]) := by decide +kernel
  have hloaded : ((overdrawing "load p").reply registry
      (freshSession (Port.ofBuffer [97, 98]) false (.number 5))).ended = .status 0 := by
    decide +kernel
  have hleft : overdrawnFailed.port? = some ⟨.buffer [98] [0, 97], []⟩ := by decide +kernel
  have hruns : overdrawnLoaded.engine.map (·.code.program) = some overdrawn := by decide +kernel
  have hkeep : allKeepProgram registry [overdrawing "continue"] overdrawnLoaded = true := by
    decide +kernel
  have hreset : asked registry overdrawnFailed (overdrawing "reset").line = some (.reset, []) := by
    decide +kernel
  have hdrive : allDrive registry [overdrawing "step"] overdrawnRestarted = true := by decide +kernel
  obtain ⟨program, e₀, he₀, hpristine, -, hall⟩ :=
    reset_forgets registry rfl rfl (overdrawing "load p") hasked hloaded
  obtain ⟨port, hport, hrestarts⟩ := hall _ _ [] hkeep hreset
  have hsame : port = ⟨.buffer [98] [0, 97], []⟩ := Option.some.inj (hport.symm.trans hleft)
  have hprogram : program = overdrawn := by
    rw [show overdrawnLoaded.engine = some e₀ from he₀] at hruns
    exact hpristine.runs.symm.trans (Option.some.inj hruns)
  subst hsame hprogram
  obtain ⟨hanswers, e, e', he, hs', hlike⟩ := hrestarts.course [overdrawing "step"] hdrive
  exact ⟨hleft, ⟨_, hrestarts.engine, hpristine.stack, hpristine.fault⟩, hanswers, e, e', he,
    congrArg Session.engine hs', hlike.machine.port.output⟩

end Debugger

end ChunkMachine
