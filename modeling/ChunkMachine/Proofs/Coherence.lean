import ChunkMachine.Proofs.SessionStep

/-!
# Whether a session is loaded as a whole

A session holds a path, a code and an engine, and these belong together: there should be all of them or
none, and the engine should run on the very code that the session holds and not on a copy, so that what it
marks as visited is marked there. A line that loads a program takes the path and the code over first and starts the engine then.
Starting can fail, for there must be a port for the engine to work on and a seed to make its generator
from, and what was taken over stays. So a session without a port, or with a blank seed, is loaded by
halves: every file that can be read as a program leaves its path and its code there, and there is never an
engine. In any other session the three parts are there together.

The code and the engine come apart between the two halves of a load, where the engine is still the one
before. That they are never left so is shown by the invariant: if an engine is there, the next one can be
started too.

## What is proved

* `turns_coherent`: what one line makes of the three parts.
* `session_coherent`: what any lines make of them. The engine is missing just where it cannot be started,
  and where there is one it runs on the code of the session, with the same flags.
-/

namespace ChunkMachine.Debugger

/-- Can an engine be started in the session, once there is a program? There must be a port, and the seed
must not be blank. -/
def Session.CanStart (s : Session) : Prop := s.freshPort.isSome ∧ s.seed ≠ .blank

/-- The parts of a session belong together, as far as an engine can be started. -/
structure Session.Coherent (s : Session) : Prop where
  /-- There is a path just when there is a code. -/
  path_iff : s.path.isSome ↔ s.code.isSome
  /-- There is an engine just when there is a code that can be started. -/
  engine_iff : s.engine.isSome ↔ s.code.isSome ∧ s.CanStart
  /-- An engine runs on the very code of the session. -/
  shares : ∀ e, s.engine = some e → s.held = .engines

/-! ### What an engine is started from -/

theorem exists_seed {seed : Seed} (h : seed ≠ .blank) (clock : Int) :
    ∃ n, seed.value clock = .ok n := by
  cases seed with
  | clock => exact ⟨clock, rfl⟩
  | number i => exact ⟨i, rfl⟩
  | blank => exact absurd rfl h

theorem ne_blank_of_value {seed : Seed} {clock n : Int} (h : seed.value clock = .ok n) :
    seed ≠ .blank := by
  rintro rfl
  cases h

namespace Session.Coherent

variable {s : Session}

/-- Where an engine can be started there is a port for it: the one of the engine before, or a fresh
one. -/
theorem exists_port (h : s.CanStart) : ∃ port, s.port? = some port := by
  unfold Session.port?
  cases s.engine with
  | some e => exact ⟨e.port, rfl⟩
  | none => exact Option.isSome_iff_exists.1 h.1

/-- What is needed to start an engine was there from the beginning: the port of an engine was the fresh
one once. -/
theorem canStart (hs : s.Coherent) {port : Port} {clock n : Int} (hport : s.port? = some port)
    (hseed : s.seed.value clock = .ok n) : s.CanStart := by
  cases he : s.engine with
  | some e => exact (hs.engine_iff.1 (by rw [he]; rfl)).2
  | none =>
    rw [Session.port?, he] at hport
    exact ⟨Option.isSome_iff_exists.2 ⟨port, hport⟩, ne_blank_of_value hseed⟩

/-- A session with a path that takes over an engine. -/
theorem withEngine {path : Path} {e : Engine} (hpath : s.path = some path) (hstart : s.CanStart) :
    (s.withEngine e).Coherent := by
  refine ⟨iff_of_true (congrArg Option.isSome hpath) rfl, iff_of_true rfl ⟨rfl, hstart⟩, fun e' he' => ?_⟩
  cases he'
  rfl

/-- A session with a code has a path. -/
theorem exists_path (hs : s.Coherent) {code : Code} (hcode : s.code = some code) :
    ∃ path, s.path = some path :=
  Option.isSome_iff_exists.1 (hs.path_iff.2 (by rw [hcode]; rfl))

theorem code_eq (hs : s.Coherent) {e : Engine} (he : s.engine = some e) : s.code = some e.code := by
  simp [Session.code, hs.shares e he, he]

/-- What an engine that is moved marks in its code is marked for the session. -/
theorem moved (hs : s.Coherent) {e : Engine} (he : s.engine = some e) (e' : Engine) :
    Session.Coherent { s with engine := some e' } := by
  have hheld : s.withEngine e' = { s with engine := some e' } := by
    rw [Session.withEngine, ← hs.shares e he]
  obtain ⟨path, hpath⟩ := hs.exists_path (hs.code_eq he)
  rw [← hheld]
  exact withEngine hpath (hs.engine_iff.1 (by rw [he]; rfl)).2

/-- A program that cannot be started leaves the session without an engine: an engine that was there
would have had all that it takes. -/
theorem adopted (hs : s.Coherent) {path : Path} {program : Program} {clock : Int}
    {fault : SessionFault} (hreset : (s.adopt path program).reset clock = .error fault) :
    (s.adopt path program).Coherent := by
  have hcannot : ¬ s.CanStart := by
    intro hstart
    obtain ⟨port, hport⟩ := exists_port hstart
    obtain ⟨n, hseed⟩ := exists_seed hstart.2 clock
    have hok : (s.adopt path program).reset clock = .ok _ := reset_of_loaded rfl hport hseed
    rw [hreset] at hok
    cases hok
  have hnone : s.engine = none := by
    cases he : s.engine with
    | none => rfl
    | some e => exact absurd (hs.engine_iff.1 (by rw [he]; rfl)).2 hcannot
  refine ⟨iff_of_true rfl rfl, iff_of_false ?_ fun h => hcannot h.2, fun e he => ?_⟩
  · simp [Session.adopt, hnone]
  · rw [Session.adopt, hnone] at he
    cases he

theorem resetVisited (hs : s.Coherent) : s.resetVisited.Coherent := by
  have hpath : s.resetVisited.path = s.path := by rw [Session.resetVisited_eq]
  have hstart : s.resetVisited.CanStart ↔ s.CanStart := by
    rw [Session.resetVisited_eq]
    exact Iff.rfl
  refine ⟨?_, ?_, fun e he => ?_⟩
  · rw [hpath, Session.code_resetVisited, Option.isSome_map]
    exact hs.path_iff
  · rw [Session.code_resetVisited, Option.isSome_map, Session.isSome_engine_resetVisited, hstart]
    exact hs.engine_iff
  · have hsome : s.engine.isSome := by
      rw [← Session.isSome_engine_resetVisited, he]
      rfl
    obtain ⟨before, hbefore⟩ := Option.isSome_iff_exists.1 hsome
    have hheld := hs.shares before hbefore
    simp only [Session.resetVisited, hheld]

end Session.Coherent

/-! ### One line -/

/-- No line changes the fresh port or the seed. -/
theorem turns_setup {r : Registry} {s s' : Session} {x : Entry} (h : Turns r s x s') :
    s'.freshPort = s.freshPort ∧ s'.seed = s.seed := by
  cases h with
  | same | cleared | renamed | adopted | moved => exact ⟨rfl, rfl⟩
  | uncovered =>
    rw [Session.resetVisited_eq]
    exact ⟨rfl, rfl⟩
  | added _ _ hadd =>
    obtain ⟨b, rfl⟩ := addBreakpoint_session hadd
    exact ⟨rfl, rfl⟩
  | loaded hreset | restarted hreset =>
    obtain ⟨_, _, _, -, -, -, -, rfl⟩ := reset_eq_ok hreset
    exact ⟨rfl, rfl⟩

/-- **A line keeps the parts of a session together.** -/
theorem turns_coherent {r : Registry} {s s' : Session} {x : Entry} (h : Turns r s x s')
    (hs : s.Coherent) : s'.Coherent := by
  cases h with
  | same => exact hs
  | cleared | renamed => exact ⟨hs.path_iff, hs.engine_iff, hs.shares⟩
  | added _ _ hadd =>
    obtain ⟨b, rfl⟩ := addBreakpoint_session hadd
    exact ⟨hs.path_iff, hs.engine_iff, hs.shares⟩
  | adopted path program hreset => exact hs.adopted hreset
  | @loaded path program _ _ hreset =>
    obtain ⟨_, port, n, -, hport, hseed, rfl, rfl⟩ := reset_eq_ok hreset
    have hport' : s.port? = some port := hport
    have hstart : (s.adopt path program).CanStart := hs.canStart hport' hseed
    exact Session.Coherent.withEngine rfl hstart
  | restarted hreset =>
    obtain ⟨_, port, n, hprogram, hport, hseed, rfl, rfl⟩ := reset_eq_ok hreset
    obtain ⟨code, hcode, -⟩ := Option.map_eq_some_iff.1 hprogram
    obtain ⟨path, hpath⟩ := hs.exists_path hcode
    exact Session.Coherent.withEngine hpath (hs.canStart hport hseed)
  | uncovered => exact hs.resetVisited
  | moved he => exact hs.moved he _

/-! ### Any lines -/

/-- **The parts of a session are there together, where an engine can be started at all.** Take any lines
from a session on in which nothing is loaded, in any surroundings. Then there is a path just when there is
a code. There is an engine just when there is a code and the session had a port and a seed from the start:
without them a program is left with no engine. And where there is an engine, it runs on the very code of the
session, so that both have the same commands and the same flags, one for each chunk. -/
theorem session_coherent (r : Registry) (s₀ : Session) (hpath : s₀.path = none)
    (hcode : s₀.code = none) (hengine : s₀.engine = none) (entries : List Entry) :
    ((sessionAfter r entries s₀).path.isSome ↔ (sessionAfter r entries s₀).code.isSome) ∧
    ((sessionAfter r entries s₀).engine.isSome ↔
      (sessionAfter r entries s₀).code.isSome ∧ s₀.freshPort.isSome ∧ s₀.seed ≠ .blank) ∧
    ∀ e, (sessionAfter r entries s₀).engine = some e →
      (sessionAfter r entries s₀).held = .engines ∧ (sessionAfter r entries s₀).code = some e.code ∧
        e.code.visited.size = e.code.chunkCount := by
  have hstart : s₀.Coherent := by
    refine ⟨?_, ?_, fun e he => ?_⟩
    · simp [hpath, hcode]
    · simp [hengine, hcode]
    · rw [hengine] at he
      cases he
  have hplaced : s₀.Placed := fun e he => by rw [hengine] at he; cases he
  obtain ⟨⟨hport, hseed⟩, hplaced, hs⟩ := sessionAfter_keeps
    (P := fun s => (s.freshPort = s₀.freshPort ∧ s.seed = s₀.seed) ∧ s.Placed ∧ s.Coherent)
    (fun hturn ⟨hsetup, hp, hc⟩ =>
      ⟨⟨(turns_setup hturn).1.trans hsetup.1, (turns_setup hturn).2.trans hsetup.2⟩,
        turns_placed hturn hp, turns_coherent hturn hc⟩)
    entries (s := s₀) ⟨⟨rfl, rfl⟩, hplaced, hstart⟩
  refine ⟨hs.path_iff, ?_, fun e he => ⟨hs.shares e he, hs.code_eq he, (hplaced e he).size_visited⟩⟩
  rw [hs.engine_iff, Session.CanStart, hport, hseed]

/-- A session that has a seed and no port. -/
def portless : Session := { seed := .number 0 }

/-- The same line loads the program as a whole in a session with a port, and by halves in one without: the
path and the code are there and no engine is. -/
theorem session_coherent_half_loaded :
    portless.path = none ∧ portless.code = none ∧ portless.engine = none ∧
    (sessionAfter registry [loading] portless).path.isSome ∧
    ¬ (sessionAfter registry [loading] portless).engine.isSome ∧
    (sessionAfter registry [loading]
      { portless with freshPort := some (Port.ofBuffer []) }).engine.isSome := by
  have hloaded : (sessionAfter registry [loading] portless).code.isSome := by decide +kernel
  have hloaded' : (sessionAfter registry [loading]
      { portless with freshPort := some (Port.ofBuffer []) }).code.isSome := by decide +kernel
  obtain ⟨hpath, hengine, -⟩ := session_coherent registry portless rfl rfl rfl [loading]
  obtain ⟨-, hengine', -⟩ := session_coherent registry
    { portless with freshPort := some (Port.ofBuffer []) } rfl rfl rfl [loading]
  refine ⟨rfl, rfl, rfl, hpath.2 hloaded, fun h => ?_, hengine'.2 ⟨hloaded', rfl, nofun⟩⟩
  exact absurd (hengine.1 h).2.1 (by decide)

end ChunkMachine.Debugger
