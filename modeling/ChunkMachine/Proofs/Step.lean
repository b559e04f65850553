import ChunkMachine.Engine
import ChunkMachine.Proofs.Plan
import Mathlib.Logic.Function.Iterate

/-!
# What a step does

A step of a running engine executes the current chunk and then leaves by one of seven exits. `Exits`
lists them, each with the engine that it leaves behind, and `step_exits` says that there are no
others. What an engine can become in one step is read off this list, and what it can become in many
is read off the iterates `after`.

An engine that does not run stays as it is, so its iterates are all the same engine. Wherever a step
leads, it leads to a chunk of the program (`Placed`).
-/

namespace ChunkMachine

/-! ### Looking a chunk up -/

namespace Code

theorem chunk_eq_ok_iff {code : Code} {i : Int} {c : Chunk} :
    code.chunk i = .ok c ↔ 0 ≤ i ∧ code.program.chunks[i.toNat]? = some c := by
  unfold chunk
  split
  · simp only [reduceCtorEq, false_iff, not_and]
    omega
  · split <;> simp_all

/-- There is a chunk for every number below the number of chunks. -/
theorem exists_chunk {code : Code} {i : Int} (h0 : 0 ≤ i) (h : i < code.chunkCount) :
    ∃ c, code.chunk i = .ok c := by
  have hlt : i.toNat < code.program.chunks.size := by
    have : code.chunkCount = code.program.chunks.size := rfl
    omega
  exact ⟨code.program.chunks[i.toNat], chunk_eq_ok_iff.2 ⟨h0, by simp [hlt]⟩⟩

@[simp] theorem chunkCount_mark (code : Code) (i : Nat) :
    (code.mark i).chunkCount = code.chunkCount := rfl

end Code

/-- A chunk has a symbol in each of its slots. -/
theorem execute_ne_noSlot (c : Chunk) (visited : Bool) (m : Machine) :
    (execute c.toList visited m).result ≠ .error .noSlot := by
  rw [execute_eq_follow, Plan.follow]
  rcases hperform : c.perform (c.plan visited).slots m with ⟨m', _ | ⟨slot, trouble⟩⟩
  · simp
  · obtain ⟨before, after, m₁, -, -, hact⟩ := perform_failed hperform
    rcases act_trouble hact with ⟨u, rfl, -⟩ | ⟨fault, rfl, -⟩ <;> simp

namespace Engine

/-! ### Parts of a step -/

/-- The visited flag of the current chunk. -/
def flag (e : Engine) : Bool := e.code.visited.getD e.current.toNat false

/-- The execution of a chunk with this flag. -/
def execution (e : Engine) (c : Chunk) : Execution := execute c.toList e.flag e.machine

/-- The engine with a chunk executed on its machine. -/
def executed (e : Engine) (c : Chunk) (trace : Array TraceEvent) : Engine :=
  { e with machine := (e.execution c).machine, trace }

/-- The engine with a chunk executed to its end: it is counted and marked. -/
def closed (e : Engine) (c : Chunk) (trace : Array TraceEvent) : Engine :=
  { e.executed c trace with steps := e.steps + 1, code := e.code.mark e.current.toNat }

/-- Recording changes nothing but the trace. -/
theorem exists_record (e : Engine) (event : TraceEvent) :
    ∃ trace, e.record event = { e with trace } := by
  unfold record
  split
  · exact ⟨_, rfl⟩
  · exact ⟨e.trace, rfl⟩

@[simp] theorem machine_record (e : Engine) (event : TraceEvent) :
    (e.record event).machine = e.machine := by
  obtain ⟨trace, h⟩ := e.exists_record event
  rw [h]

theorem running_iff {e : Engine} : e.running = true ↔ e.status = .running := by
  simp [running]

/-- A step executes the current chunk with the flag of that chunk. -/
theorem step_eq {e : Engine} {c : Chunk} (hrun : e.status = .running)
    (hc : e.code.chunk e.current = .ok c) :
    e.step = (e.record (.chunk e.current.toNat e.flag c e.stack)).conclude e.current.toNat c
      (e.execution c) := by
  rw [step, if_pos (running_iff.2 hrun), hc]
  simp only [machine_record]
  rfl

theorem step_of_not_running {e : Engine} (h : e.status ≠ .running) : e.step = (e, none) := by
  rw [step, if_neg (by simpa [running] using h)]

/-! ### Exits -/

/-- The exits of a step that executes chunk `c`: the engine afterwards, and what broke the step
off. -/
inductive Exits (e : Engine) (c : Chunk) : Engine → Option Abort → Prop where
  /-- The chunk halted the program. -/
  | halted (trace : Array TraceEvent) (h : (e.execution c).result = .ok .halted) :
    Exits e c { e.executed c trace with steps := e.steps + 1, status := .halted } none
  /-- An operation found too few words. -/
  | underflowed (trace : Array TraceEvent) {u : Underflow} {fault : Fault}
    (h : (e.execution c).result = .error (.underflow u))
    (hfault : fault = .underflow u (c.opcode (e.execution c).slot) e.current.toNat) :
    Exits e c { e.executed c trace with status := .failed fault } (some (.fault fault))
  /-- A read found no memory. -/
  | starved (trace : Array TraceEvent)
    (h : (e.execution c).result = .error (.read .outOfMemory)) :
    Exits e c { e.executed c trace with status := .failed .outOfMemory }
      (some (.fault .outOfMemory))
  /-- A read was interrupted. -/
  | interrupted (trace : Array TraceEvent)
    (h : (e.execution c).result = .error (.read .interrupted)) :
    Exits e c (e.executed c trace) (some .interrupted)
  /-- The chunk came to its end and left no word. -/
  | emptied (trace : Array TraceEvent) {ending : Ending}
    (h : (e.execution c).result = .ok ending) (hending : ending ≠ .halted)
    (hstack : (e.execution c).machine.stack = []) :
    Exits e c { e.closed c trace with status := .failed .emptyStack } (some (.fault .emptyStack))
  /-- The chunk came to its end and the top word names no chunk. -/
  | strayed (trace : Array TraceEvent) {ending : Ending} {target : Word} {rest : Stack}
    (h : (e.execution c).result = .ok ending) (hending : ending ≠ .halted)
    (hstack : (e.execution c).machine.stack = target :: rest)
    (htarget : e.code.chunkCount ≤ target.toNat) :
    Exits e c { e.closed c trace with status := .failed (.invalidJump target) }
      (some (.fault (.invalidJump target)))
  /-- The chunk came to its end and the top word names the next one. -/
  | moved (trace : Array TraceEvent) {ending : Ending} {target : Word} {rest : Stack}
    (h : (e.execution c).result = .ok ending) (hending : ending ≠ .halted)
    (hstack : (e.execution c).machine.stack = target :: rest)
    (htarget : target.toNat < e.code.chunkCount) :
    Exits e c { e.closed c trace with current := target.toNat } none

theorem jump_exits {e e' : Engine} {c : Chunk} {trace : Array TraceEvent} {ending : Ending}
    (h : (e.execution c).result = .ok ending) (hending : ending ≠ .halted)
    (he' : e' = { e.executed c trace with steps := e.steps + 1 }) :
    Exits e c (e'.jump e.current.toNat).1 (e'.jump e.current.toNat).2 := by
  subst he'
  cases hstack : (e.execution c).machine.stack with
  | nil =>
    simp only [jump, executed, hstack, fail]
    exact .emptied trace h hending hstack
  | cons target rest =>
    by_cases htarget : target.toNat < e.code.chunkCount
    · simp only [jump, executed, hstack, Code.chunkCount_mark, htarget, if_true]
      exact .moved trace h hending hstack htarget
    · simp only [jump, executed, hstack, Code.chunkCount_mark, htarget, if_false, fail]
      exact .strayed trace h hending hstack (Nat.le_of_not_lt htarget)

theorem exits_step {e : Engine} {c : Chunk} (hrun : e.status = .running)
    (hc : e.code.chunk e.current = .ok c) : Exits e c e.step.1 e.step.2 := by
  rw [step_eq hrun hc]
  obtain ⟨trace, hrecord⟩ := e.exists_record (.chunk e.current.toNat e.flag c e.stack)
  rw [hrecord]
  cases hx : (e.execution c).result with
  | error trouble =>
    cases trouble with
    | underflow u =>
      simp only [conclude, hx, fail]
      exact .underflowed trace hx rfl
    | read fault =>
      cases fault with
      | outOfMemory =>
        simp only [conclude, hx, fail]
        exact .starved trace hx
      | interrupted =>
        simp only [conclude, hx]
        exact .interrupted trace hx
    | noSlot => exact absurd hx (execute_ne_noSlot c e.flag e.machine)
  | ok ending =>
    cases ending with
    | halted =>
      simp only [conclude, hx]
      obtain ⟨trace', hhalt⟩ := exists_record
        { e.executed c trace with steps := e.steps + 1, status := .halted }
        (.halt e.current.toNat (e.steps + 1))
      simp only [executed] at hhalt
      rw [hhalt]
      exact .halted trace' hx
    | completed =>
      simp only [conclude, hx]
      exact jump_exits hx (by simp) rfl
    | returned =>
      simp only [conclude, hx]
      exact jump_exits hx (by simp) rfl

/-- **A step that executes a chunk leaves by one of the exits.** -/
theorem step_exits {e e' : Engine} {abort : Option Abort} {c : Chunk} (hrun : e.status = .running)
    (hc : e.code.chunk e.current = .ok c) (hstep : e.step = (e', abort)) : Exits e c e' abort := by
  have := exits_step hrun hc
  rwa [hstep] at this

/-! ### Steps in a row -/

/-- The engine after one step, whether or not the step was broken off. -/
def next (e : Engine) : Engine := e.step.1

/-- The engine after `k` steps. -/
def after (e : Engine) (k : Nat) : Engine := next^[k] e

@[simp] theorem after_zero (e : Engine) : e.after 0 = e := rfl

theorem after_succ (e : Engine) (k : Nat) : e.after (k + 1) = (e.after k).next :=
  Function.iterate_succ_apply' next k e

theorem after_succ_next (e : Engine) (k : Nat) : e.after (k + 1) = e.next.after k :=
  Function.iterate_succ_apply next k e

theorem after_add (e : Engine) (j k : Nat) : e.after (j + k) = (e.after j).after k := by
  rw [Nat.add_comm]
  exact Function.iterate_add_apply next k j e

theorem next_of_not_running {e : Engine} (h : e.status ≠ .running) : e.next = e := by
  rw [next, step_of_not_running h]

theorem after_of_not_running {e : Engine} (h : e.status ≠ .running) (k : Nat) : e.after k = e :=
  Function.iterate_fixed (next_of_not_running h) k

/-- An engine that runs after some steps has run all the time. -/
theorem running_after_of_le {e : Engine} {j k : Nat} (hjk : j ≤ k)
    (h : (e.after k).status = .running) : (e.after j).status = .running := by
  by_contra hj
  obtain ⟨d, rfl⟩ := Nat.exists_eq_add_of_le hjk
  rw [after_add, after_of_not_running hj] at h
  exact hj h

/-- A program that failed has the same fault from then on. -/
theorem failed_after_of_le {e : Engine} {j k : Nat} {fault : Fault} (hjk : j ≤ k)
    (h : (e.after j).status = .failed fault) : (e.after k).status = .failed fault := by
  obtain ⟨d, rfl⟩ := Nat.exists_eq_add_of_le hjk
  rw [after_add, after_of_not_running (by rw [h]; simp), h]

/-- A fault that breaks a step off is recorded. -/
theorem next_of_fault {e : Engine} {fault : Fault} (h : e.step.2 = some (.fault fault)) :
    e.next.status = .failed fault := by
  by_cases hrun : e.status = .running
  · cases hc : e.code.chunk e.current with
    | error missing => simp [step, running_iff.2 hrun, hc] at h
    | ok c =>
      unfold next
      rcases hs : e.step with ⟨e', abort⟩
      rw [hs] at h
      cases step_exits hrun hc hs <;> cases h <;> rfl
  · rw [step_of_not_running hrun] at h
    cases h

/-- A step that comes to its end halts the program or leads to the next chunk. -/
theorem status_next_of_none {e : Engine} (hrun : e.status = .running) (h : e.step.2 = none) :
    e.next.status = .running ∨ e.next.status = .halted := by
  cases hc : e.code.chunk e.current with
  | error missing => simp [step, running_iff.2 hrun, hc] at h
  | ok c =>
    unfold next
    rcases hs : e.step with ⟨e', abort⟩
    rw [hs] at h
    cases h
    cases step_exits hrun hc hs with
    | halted => exact .inr rfl
    | moved => exact .inl hrun

/-! ### Engines that are not traced -/

theorem record_of_not_tracing {e : Engine} (h : e.tracing = false) (event : TraceEvent) :
    e.record event = e := by
  simp [record, h]

/-- An engine that is not traced records nothing. -/
theorem trace_next {e : Engine} (h : e.tracing = false) :
    e.next.trace = e.trace ∧ e.next.tracing = false := by
  by_cases hrun : e.status = .running
  · cases hc : e.code.chunk e.current with
    | error missing => simp [next, step, running_iff.2 hrun, hc, h]
    | ok c =>
      rw [next, step_eq hrun hc, record_of_not_tracing h, conclude]
      simp only
      split
      · exact ⟨rfl, h⟩
      · exact ⟨rfl, h⟩
      · exact ⟨rfl, h⟩
      · exact ⟨rfl, h⟩
      · simp [record, h]
      · unfold jump
        simp only
        split
        · exact ⟨rfl, h⟩
        · split <;> exact ⟨rfl, h⟩
  · rw [next_of_not_running hrun]
    exact ⟨rfl, h⟩

theorem trace_after {e : Engine} (h : e.tracing = false) (k : Nat) :
    (e.after k).trace = e.trace ∧ (e.after k).tracing = false := by
  induction k with
  | zero => exact ⟨rfl, h⟩
  | succ k ih =>
    obtain ⟨htrace, htracing⟩ := ih
    obtain ⟨hnext, hnext'⟩ := trace_next htracing
    rw [after_succ, hnext]
    exact ⟨htrace, hnext'⟩

/-! ### Standing on a chunk -/

/-- The engine stands on a chunk of its program, and every chunk has a flag. Unlike what the top word
of the stack says, this survives an interrupt in the middle of a chunk. -/
structure Placed (e : Engine) : Prop where
  current_nonneg : 0 ≤ e.current
  current_lt : e.current < e.code.chunkCount
  size_visited : e.code.visited.size = e.code.chunkCount

theorem start_placed (program : Program) (port : Port) (seed : Int) (tracing : Bool) :
    (start program port seed tracing).Placed where
  current_nonneg := Int.le_refl 0
  current_lt := by
    have := program.chunkCount_pos
    simpa [start, Code.ofProgram, Code.chunkCount] using this
  size_visited := by simp [start, Code.ofProgram, Code.chunkCount]

theorem Placed.exists_chunk {e : Engine} (h : e.Placed) : ∃ c, e.code.chunk e.current = .ok c :=
  Code.exists_chunk h.current_nonneg h.current_lt

/-- An engine that stands on a chunk finds it. -/
theorem Placed.step_ne_index {e : Engine} (h : e.Placed) (missing : IndexFault) :
    e.step.2 ≠ some (.index missing) := by
  by_cases hrun : e.status = .running
  · obtain ⟨c, hc⟩ := h.exists_chunk
    rcases hs : e.step with ⟨e', abort⟩
    cases step_exits hrun hc hs <;> simp
  · simp [step_of_not_running hrun]

theorem Placed.toNat_lt {e : Engine} (h : e.Placed) : e.current.toNat < e.code.visited.size := by
  have h0 := h.current_nonneg
  have hlt := h.current_lt
  rw [h.size_visited]
  omega

/-- An engine that stays on its chunk stays placed, whether or not it marked the chunk. -/
theorem Placed.stay {e e' : Engine} (h : e.Placed) (hcurrent : e'.current = e.current)
    (hcode : e'.code = e.code ∨ e'.code = e.code.mark e.current.toNat) : e'.Placed := by
  obtain ⟨h0, hlt, hsize⟩ := h
  rcases hcode with hcode | hcode
  · exact ⟨by rw [hcurrent]; exact h0, by rw [hcurrent, hcode]; exact hlt, by rw [hcode]; exact hsize⟩
  · refine ⟨by rw [hcurrent]; exact h0, by rw [hcurrent, hcode]; exact hlt, ?_⟩
    rw [hcode, Code.size_visited_mark, hsize, Code.chunkCount_mark]

/-- **A step leads to a chunk of the program**, however it ends. -/
theorem next_placed {e : Engine} (h : e.Placed) : e.next.Placed := by
  by_cases hrun : e.status = .running
  · obtain ⟨c, hc⟩ := h.exists_chunk
    unfold next
    rcases hs : e.step with ⟨e', abort⟩
    cases step_exits hrun hc hs with
    | halted | underflowed | starved | interrupted => exact h.stay rfl (.inl rfl)
    | emptied | strayed => exact h.stay rfl (.inr rfl)
    | moved trace hresult hending hstack htarget =>
      refine ⟨Int.natCast_nonneg _, Int.ofNat_lt.2 htarget, ?_⟩
      rw [closed, Code.size_visited_mark, h.size_visited, Code.chunkCount_mark]
  · rw [next_of_not_running hrun]
    exact h

theorem flush_placed {e : Engine} (h : e.Placed) : e.flush.Placed :=
  ⟨h.current_nonneg, h.current_lt, h.size_visited⟩

theorem resetVisited_placed {e : Engine} (h : e.Placed) : e.resetVisited.Placed where
  current_nonneg := h.current_nonneg
  current_lt := h.current_lt
  size_visited := by simp [resetVisited, Code.resetVisited, Code.ofProgram, Code.chunkCount]

theorem after_placed {e : Engine} (h : e.Placed) (k : Nat) : (e.after k).Placed := by
  induction k with
  | zero => exact h
  | succ k ih =>
    rw [after_succ]
    exact next_placed ih

end Engine

end ChunkMachine
