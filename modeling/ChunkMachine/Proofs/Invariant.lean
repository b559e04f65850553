import ChunkMachine.Proofs.Simulation

/-!
# The invariant of an engine

The only link between two chunks is the top word of the stack: a chunk leaves it there, and the
engine goes where it says. `Sound` says what holds of an engine at any time because of this, and
`next_sound` that a step keeps it, by whichever exit the step leaves. The one exit that breaks it is
an interrupt in the middle of a chunk, so the calls considered here are those on a port that has none.

## What is proved

* `next_sound`, `after_sound`: a step keeps the invariant, and so does any number of them.
* `step_abort`: a sound engine that is not interrupted breaks off for a fault only, and records it.
* `reached_sound`: all of this for every engine that calls of `step` and `run` can lead to.
-/

namespace ChunkMachine

/-! ### Ports without interrupts -/

/-- No read of the port will be interrupted. -/
def Port.Uninterrupted (p : Port) : Prop := ∀ planned ∈ p.faults, planned.2 ≠ .interrupted

namespace Port

theorem Uninterrupted.read {p : Port} (h : p.Uninterrupted) :
    p.read.1 ≠ .error .interrupted ∧ p.read.2.Uninterrupted := by
  rcases p with ⟨endpoint, _ | ⟨⟨_ | n, fault⟩, faults⟩⟩
  · exact ⟨by simp [Port.read], h⟩
  · have hfault : fault ≠ .interrupted := h (0, fault) List.mem_cons_self
    refine ⟨by simpa [Port.read] using hfault, fun planned hplanned => ?_⟩
    exact h planned (List.mem_cons_of_mem _ hplanned)
  · have hfault : fault ≠ .interrupted := h (n + 1, fault) List.mem_cons_self
    refine ⟨by simp [Port.read], fun planned hplanned => ?_⟩
    rcases List.mem_cons.1 hplanned with rfl | hplanned
    · exact hfault
    · exact h planned (List.mem_cons_of_mem _ hplanned)

/-- Reading and writing keep a port free of interrupts. -/
theorem uninterrupted_simulation : Simulation fun p q => p = q ∧ p.Uninterrupted where
  read := by
    rintro p q ⟨rfl, h⟩
    exact ⟨rfl, rfl, h.read.2⟩
  write := by
    rintro p q w ⟨rfl, h⟩
    exact ⟨rfl, h⟩

end Port

theorem execute_uninterrupted (c : Chunk) (visited : Bool) {m : Machine}
    (h : m.port.Uninterrupted) :
    (execute c.toList visited m).result ≠ .error (.read .interrupted) := by
  rw [execute_eq_follow, Plan.follow]
  rcases hperform : c.perform (c.plan visited).slots m with ⟨m', _ | ⟨slot, trouble⟩⟩
  · simp
  · obtain ⟨before, after, m₁, -, hbefore, hact⟩ := perform_failed hperform
    have hport : m₁.port.Uninterrupted := by
      have := (perform_like Port.uninterrupted_simulation c before ⟨rfl, rfl, rfl, h⟩).1.port.2
      rwa [hbefore] at this
    rcases act_trouble hact with ⟨u, rfl, -⟩ | ⟨fault, rfl, -, hread, -⟩
    · simp
    · rintro hinterrupted
      simp only [Except.error.injEq, Trouble.read.injEq] at hinterrupted
      exact hport.read.1 (hinterrupted ▸ hread)

/-- A flag that is set adds at most one to the count. -/
theorem Code.visitedCount_mark_le (code : Code) (i : Nat) :
    (code.mark i).visitedCount ≤ code.visitedCount + 1 := by
  unfold Code.visitedCount Code.mark Array.setIfInBounds
  split
  · simp only [Array.count_set]
    split <;> simp
  · exact Nat.le_succ _

namespace Engine

/-- On a port without interrupts no step is interrupted, and the port stays without. -/
theorem step_uninterrupted {e : Engine} (h : e.port.Uninterrupted) :
    e.step.2 ≠ some .interrupted ∧ e.next.port.Uninterrupted := by
  constructor
  · by_cases hrun : e.status = .running
    · cases hc : e.code.chunk e.current with
      | error fault => simp [step, running_iff.2 hrun, hc]
      | ok c =>
        rcases hstep : e.step with ⟨e', abort⟩
        cases step_exits hrun hc hstep with
        | interrupted trace hresult => exact absurd hresult (execute_uninterrupted c e.flag h)
        | _ => simp
    · simp [step_of_not_running hrun]
  · have hself : e.Like (fun p q => p = q ∧ p.Uninterrupted) e :=
      ⟨rfl, ⟨rfl, rfl, rfl, h⟩, rfl, rfl, rfl⟩
    exact (step_like Port.uninterrupted_simulation hself).1.machine.port.2

/-! ### The invariant -/

/-- What holds of an engine at any time. -/
structure Sound (e : Engine) : Prop where
  /-- The current chunk is one of the program. -/
  current_nonneg : 0 ≤ e.current
  current_lt : e.current < e.code.chunkCount
  /-- While the program goes on, the top word of the stack names the current chunk. -/
  top : e.status = .running → ∃ w rest, e.stack = w :: rest ∧ e.current = w.toNat
  /-- Every word is below `2 ^ 32`. -/
  word_lt : ∀ w ∈ e.stack, w.toNat < UInt32.size
  /-- A fault is recorded just when the program failed. -/
  fault_iff : e.fault?.isSome ↔ e.status.name = "failed"
  /-- There is one flag per chunk. -/
  size_visited : e.code.visited.size = e.code.chunkCount
  /-- No more chunks are marked than steps were made. -/
  visitedCount_le : e.code.visitedCount ≤ e.steps

theorem fault_isSome_iff (e : Engine) : e.fault?.isSome ↔ e.status.name = "failed" := by
  unfold fault?
  cases e.status <;> simp [Status.name]

theorem start_sound (program : Program) (port : Port) (seed : Int) (tracing : Bool) :
    (start program port seed tracing).Sound where
  current_nonneg := Int.le_refl 0
  current_lt := by
    have := program.chunkCount_pos
    simpa [start, Code.ofProgram, Code.chunkCount] using this
  top _ := ⟨0, [], rfl, rfl⟩
  word_lt w _ := w.toNat_lt
  fault_iff := fault_isSome_iff _
  size_visited := by simp [start, Code.ofProgram, Code.chunkCount]
  visitedCount_le := by simp [start, Code.ofProgram, Code.visitedCount, Array.count_replicate]

theorem Sound.exists_chunk {e : Engine} (h : e.Sound) : ∃ c, e.code.chunk e.current = .ok c :=
  Code.exists_chunk h.current_nonneg h.current_lt

/-- A chunk that did not come to its end leaves a sound engine, if the program does not go on. -/
theorem Sound.executed {e e' : Engine} (h : e.Sound) (hcode : e'.code = e.code)
    (hcurrent : e'.current = e.current) (hsteps : e.steps ≤ e'.steps)
    (hstatus : e'.status ≠ .running) : e'.Sound where
  current_nonneg := hcurrent ▸ h.current_nonneg
  current_lt := by rw [hcurrent, hcode]; exact h.current_lt
  top hrun := absurd hrun hstatus
  word_lt w _ := w.toNat_lt
  fault_iff := fault_isSome_iff _
  size_visited := by rw [hcode]; exact h.size_visited
  visitedCount_le := by rw [hcode]; exact Nat.le_trans h.visitedCount_le hsteps

/-- A chunk that came to its end leaves a sound engine, wherever that one goes. -/
theorem Sound.closed {e e' : Engine} {i : Nat} (h : e.Sound) (hcode : e'.code = e.code.mark i)
    (hsteps : e'.steps = e.steps + 1) (h0 : 0 ≤ e'.current) (hlt : e'.current < e.code.chunkCount)
    (htop : e'.status = .running → ∃ w rest, e'.stack = w :: rest ∧ e'.current = w.toNat) :
    e'.Sound where
  current_nonneg := h0
  current_lt := by rw [hcode]; exact hlt
  top := htop
  word_lt w _ := w.toNat_lt
  fault_iff := fault_isSome_iff _
  size_visited := by rw [hcode, Code.size_visited_mark, h.size_visited, Code.chunkCount_mark]
  visitedCount_le := by
    have hcount := e.code.visitedCount_mark_le i
    have hle := h.visitedCount_le
    rw [hcode, hsteps]
    omega

/-- **A step keeps the invariant**, unless it is interrupted. -/
theorem next_sound {e : Engine} (h : e.Sound) (hstep : e.step.2 ≠ some .interrupted) :
    e.next.Sound := by
  by_cases hrun : e.status = .running
  · obtain ⟨c, hc⟩ := h.exists_chunk
    unfold next
    rcases hs : e.step with ⟨e', abort⟩
    rw [hs] at hstep
    cases step_exits hrun hc hs with
    | halted => exact h.executed rfl rfl (Nat.le_succ _) (by simp)
    | underflowed => exact h.executed rfl rfl (Nat.le_refl _) (by simp)
    | starved => exact h.executed rfl rfl (Nat.le_refl _) (by simp)
    | interrupted => exact absurd rfl hstep
    | emptied => exact h.closed rfl rfl h.current_nonneg h.current_lt (by simp)
    | strayed => exact h.closed rfl rfl h.current_nonneg h.current_lt (by simp)
    | @moved trace ending target rest hresult hending hstack htarget =>
      -- the word that the chunk left on top is the number of the chunk it goes to
      refine h.closed rfl rfl (Int.natCast_nonneg _) (Int.ofNat_lt.2 htarget) fun _ => ?_
      exact ⟨target, rest, hstack, rfl⟩
  · rw [next_of_not_running hrun]
    exact h

/-- A sound engine that is not interrupted breaks off for a fault only, and records it. -/
theorem step_abort {e : Engine} {abort : Abort} (h : e.Sound) (hstep : e.step.2 = some abort)
    (hni : abort ≠ .interrupted) : ∃ fault, abort = .fault fault ∧ e.next.status = .failed fault := by
  by_cases hrun : e.status = .running
  · obtain ⟨c, hc⟩ := h.exists_chunk
    unfold next
    rcases hs : e.step with ⟨e', abort'⟩
    rw [hs] at hstep
    cases step_exits hrun hc hs with
    | halted => cases hstep
    | underflowed => cases hstep; exact ⟨_, rfl, rfl⟩
    | starved => cases hstep; exact ⟨_, rfl, rfl⟩
    | interrupted => cases hstep; exact absurd rfl hni
    | emptied => cases hstep; exact ⟨_, rfl, rfl⟩
    | strayed => cases hstep; exact ⟨_, rfl, rfl⟩
    | moved => cases hstep
  · rw [step_of_not_running hrun] at hstep
    cases hstep

/-! ### Runs -/

theorem after_sound {e : Engine} (h : e.Sound) (k : Nat)
    (hni : ∀ j < k, (e.after j).step.2 ≠ some .interrupted) : (e.after k).Sound := by
  induction k with
  | zero => exact h
  | succ k ih =>
    rw [after_succ]
    exact next_sound (ih fun j hj => hni j (Nat.lt_succ_of_lt hj)) (hni k (Nat.lt_succ_self k))

/-- What a step keeps, a run keeps up to its flush. -/
theorem advance_keeps {P : Engine → Prop} (hnext : ∀ e, P e → P e.next) (limit : Nat) :
    ∀ e, P e → P (advance limit e).1 := by
  induction limit with
  | zero => intro e h; exact h
  | succ limit ih =>
    intro e h
    have h' : P e.step.1 := hnext e h
    rw [advance]
    split
    · rcases hs : e.step with ⟨e', _ | abort⟩
      · rw [hs] at h'
        exact ih e' h'
      · rw [hs] at h'
        exact h'
    · exact h

/-- A run stops short of its limit only where a step is broken off or changes nothing, so it ends
where its steps end. -/
theorem advance_eq_after (limit : Nat) : ∀ {e : Engine}, e.Sound →
    (∀ j < limit, (e.after j).step.2 ≠ some .interrupted) → (advance limit e).1 = e.after limit := by
  induction limit with
  | zero => intro e _ _; rfl
  | succ limit ih =>
    intro e h hni
    have hfirst : e.step.2 ≠ some .interrupted := hni 0 (Nat.succ_pos _)
    have hafter : ∀ j, e.after (j + 1) = e.next.after j := fun j => by
      rw [Nat.add_comm, after_add]
      rfl
    rw [hafter, advance]
    by_cases hrun : e.running = true
    · rw [if_pos hrun]
      rcases hs : e.step with ⟨e', _ | abort⟩
      · have he' : e.next = e' := congrArg Prod.fst hs
        simp only
        rw [he']
        refine ih (he' ▸ next_sound h hfirst) fun j hj => ?_
        rw [← he', ← hafter]
        exact hni (j + 1) (Nat.succ_lt_succ hj)
      · have he' : e.next = e' := congrArg Prod.fst hs
        have habort : e.step.2 = some abort := by rw [hs]
        obtain ⟨fault, -, hfailed⟩ := step_abort h habort fun hi => hfirst (hi ▸ habort)
        rw [after_of_not_running (by rw [hfailed]; simp), he']
    · have hstop : e.status ≠ .running := fun hr => hrun (running_iff.2 hr)
      rw [if_neg hrun, next_of_not_running hstop, after_of_not_running hstop]

theorem after_uninterrupted {e : Engine} (h : e.port.Uninterrupted) (k : Nat) :
    (e.after k).port.Uninterrupted := by
  induction k with
  | zero => exact h
  | succ k ih =>
    rw [after_succ]
    exact (step_uninterrupted ih).2

theorem step_after_uninterrupted {e : Engine} (h : e.port.Uninterrupted) (k : Nat) :
    (e.after k).step.2 ≠ some .interrupted :=
  (step_uninterrupted (after_uninterrupted h k)).1

theorem advance_abort (limit : Nat) : ∀ {e : Engine} {abort : Abort}, e.Sound →
    e.port.Uninterrupted → (advance limit e).2 = some abort → ∃ fault, abort = .fault fault := by
  induction limit with
  | zero => intro e abort _ _ habort; cases habort
  | succ limit ih =>
    intro e abort h hport habort
    obtain ⟨hni, hport'⟩ := step_uninterrupted hport
    have h' := next_sound h hni
    rw [advance] at habort
    split at habort
    · rcases hs : e.step with ⟨e', _ | abort'⟩
      · have he' : e.next = e' := congrArg Prod.fst hs
        rw [hs] at habort
        exact ih (he' ▸ h') (he' ▸ hport') habort
      · have habort' : e.step.2 = some abort' := by rw [hs]
        rw [hs] at habort
        cases habort
        obtain ⟨fault, hfault, -⟩ := step_abort h habort' fun hi => hni (hi ▸ habort')
        exact ⟨fault, hfault⟩
    · cases habort

theorem advance_of_not_running {e : Engine} (h : e.status ≠ .running) (limit : Nat) :
    advance limit e = (e, none) := by
  cases limit with
  | zero => rfl
  | succ limit => rw [advance, if_neg fun hr => h (running_iff.1 hr)]

/-- What breaks off a run that a program was given is the fault that the program ends with, if no step is
interrupted. -/
theorem advance_abort_eq (limit : Nat) : ∀ {e : Engine}, e.Sound →
    (∀ j < limit, (e.after j).step.2 ≠ some .interrupted) →
    e.status = .running → (advance limit e).2 = (e.after limit).fault?.map .fault := by
  induction limit with
  | zero =>
    intro e _ _ hrun
    simp [advance, fault?, hrun]
  | succ limit ih =>
    intro e h hni hrun
    have hfirst : e.step.2 ≠ some .interrupted := hni 0 (Nat.succ_pos _)
    have h' := next_sound h hfirst
    rw [after_succ_next, advance, if_pos (running_iff.2 hrun)]
    rcases hs : e.step with ⟨e', _ | abort⟩
    · have he' : e.next = e' := congrArg Prod.fst hs
      have hnone : e.step.2 = none := by rw [hs]
      rcases status_next_of_none hrun hnone with hnext | hnext
      · rw [he'] at h' hnext ⊢
        refine ih h' (fun j hj => ?_) hnext
        rw [← he', ← after_succ_next]
        exact hni (j + 1) (Nat.succ_lt_succ hj)
      · rw [he'] at hnext ⊢
        have hstop : e'.status ≠ .running := by rw [hnext]; simp
        rw [after_of_not_running hstop]
        simp [advance_of_not_running hstop, fault?, hnext]
    · have habort : e.step.2 = some abort := by rw [hs]
      obtain ⟨fault, rfl, hfailed⟩ := step_abort h habort fun hi => hfirst (hi ▸ habort)
      rw [after_of_not_running (by rw [hfailed]; simp)]
      simp [fault?, hfailed]

/-- A run that is given enough fuel ends with the engine after its steps, flushed, if none of them is
interrupted. -/
theorem runToEnd_eq {e : Engine} {fuel : Nat} (h : e.Sound)
    (hni : ∀ j < fuel, (e.after j).step.2 ≠ some .interrupted) (hrun : e.status = .running) :
    e.runToEnd fuel =
      if (e.after fuel).status = .running then none
      else some ((e.after fuel).flush, (e.after fuel).fault?.map .fault) := by
  have hengine := advance_eq_after fuel h hni
  have habort := advance_abort_eq fuel h hni hrun
  unfold runToEnd run
  rcases hadvance : advance fuel e with ⟨e', abort⟩
  rw [hadvance] at hengine habort
  simp only at hengine habort
  subst hengine habort
  cases hstatus : (e.after fuel).status with
  | running => simp [running, flush, mapPort, fault?, hstatus]
  | halted => simp [running, flush, mapPort, fault?, hstatus]
  | failed fault => simp [running, flush, mapPort, fault?, hstatus]

theorem runToEnd_eq_some {e e' : Engine} {fuel : Nat} {abort : Option Abort}
    (h : e.runToEnd fuel = some (e', abort)) : e.run fuel = (e', abort) := by
  unfold runToEnd at h
  split at h
  rename_i _ _ hrun
  split at h
  · cases h
  · rw [hrun]
    exact Option.some.inj h

theorem flush_sound {e : Engine} (h : e.Sound) : e.flush.Sound :=
  ⟨h.current_nonneg, h.current_lt, h.top, h.word_lt, h.fault_iff, h.size_visited,
    h.visitedCount_le⟩

/-! ### Reachable engines -/

/-- The engines that calls of `step` and `run`, with or without a limit, can lead to. A run without a
limit leads somewhere if it ends. -/
inductive Reaches (e : Engine) : Engine → Prop where
  | refl : Reaches e e
  | step {e' : Engine} : Reaches e e' → Reaches e e'.step.1
  | run {e' : Engine} (limit : Nat) : Reaches e e' → Reaches e (e'.run limit).1
  | runToEnd {e' e'' : Engine} {fuel : Nat} {abort : Option Abort} :
    Reaches e e' → e'.runToEnd fuel = some (e'', abort) → Reaches e e''

/-- What steps and flushes keep holds of every engine that is reached. -/
theorem Reaches.keeps {P : Engine → Prop} (hnext : ∀ e, P e → P e.next)
    (hflush : ∀ e, P e → P e.flush) {e e' : Engine} (h : Reaches e e') (he : P e) : P e' := by
  have hrun : ∀ limit e, P e → P (Engine.run limit e).1 := fun limit e he =>
    hflush _ (advance_keeps hnext limit e he)
  induction h with
  | refl => exact he
  | step _ ih => exact hnext _ ih
  | run limit _ ih => exact hrun limit _ ih
  | @runToEnd e' e'' fuel abort _ hend ih =>
    have := hrun fuel e' ih
    rwa [runToEnd_eq_some hend] at this

/-- A program that has ended stays as it is, but for what is flushed. -/
theorem Reaches.like_of_not_running {e e' : Engine} (h : Reaches e e') (hstop : e.status ≠ .running) :
    e'.Like Port.FlushAlike e := by
  refine h.keeps (P := fun x => x.Like Port.FlushAlike e) ?_ ?_ (Like.refl e)
  · intro x hx
    rw [next_of_not_running (hx.status ▸ hstop)]
    exact hx
  · intro x hx
    exact x.flush_like.trans hx

/-- The program of an engine never changes. -/
theorem program_next (e : Engine) : e.next.code.program = e.code.program := by
  by_cases hrun : e.status = .running
  · cases hc : e.code.chunk e.current with
    | error fault => simp [next, step, running_iff.2 hrun, hc]
    | ok c =>
      unfold next
      rcases hs : e.step with ⟨e', abort⟩
      cases step_exits hrun hc hs <;> rfl
  · rw [next_of_not_running hrun]

theorem program_after (e : Engine) (k : Nat) : (e.after k).code.program = e.code.program := by
  induction k with
  | zero => rfl
  | succ k ih => rw [after_succ, program_next, ih]

/-- The current chunk of a sound engine and its flag can be looked up, and the flag can be set. -/
theorem Sound.lookups {e : Engine} (h : e.Sound) :
    ∃ c, e.code.chunk e.current = .ok c ∧ e.code.isVisited e.current = .ok e.flag ∧
      e.code.markVisited e.current = .ok (e.code.mark e.current.toNat) := by
  obtain ⟨c, hc⟩ := h.exists_chunk
  have h0 := h.current_nonneg
  have hlt : e.current < e.code.visited.size := by
    rw [h.size_visited]
    exact h.current_lt
  have hposition : ∀ missing, e.code.flagPosition e.current missing = .ok e.current.toNat := by
    intro missing
    have hneg : ¬ e.current < 0 := Int.not_lt.2 h0
    simp [Code.flagPosition, hneg, h0, hlt]
  refine ⟨c, hc, ?_, ?_⟩
  · rw [Code.isVisited, hposition]
    rfl
  · rw [Code.markVisited, hposition]
    rfl

/-- **The invariant of an engine.** Let an engine be started for any program, on a port whose reads
may run out of memory but are not interrupted, and let it be moved by any calls of `step` and `run`.
Then it is sound, its program is the one it was started for, and no look-up in a step misses; a call
breaks off for a fault of the program only; and once the program has ended, further calls change
nothing that the engine shows. -/
theorem reached_sound (program : Program) (port : Port) (seed : Int) (tracing : Bool)
    (hport : port.Uninterrupted) {e : Engine} (h : Reaches (start program port seed tracing) e) :
    e.Sound ∧ e.code.program = program ∧
    (∃ c, e.code.chunk e.current = .ok c ∧ e.code.isVisited e.current = .ok e.flag ∧
      e.code.markVisited e.current = .ok (e.code.mark e.current.toNat)) ∧
    (∀ abort, e.step.2 = some abort → ∃ fault, abort = .fault fault) ∧
    (∀ limit abort, (e.run limit).2 = some abort → ∃ fault, abort = .fault fault) ∧
    (e.status ≠ .running → ∀ e', Reaches e e' → e'.Shows e) := by
  obtain ⟨hsound, huninterrupted, hprogram⟩ :
      e.Sound ∧ e.port.Uninterrupted ∧ e.code.program = program := by
    refine h.keeps (P := fun x => x.Sound ∧ x.port.Uninterrupted ∧ x.code.program = program)
      ?_ ?_ ⟨start_sound program port seed tracing, hport, rfl⟩
    · rintro x ⟨hx, hxport, hxprogram⟩
      obtain ⟨hni, hxport'⟩ := step_uninterrupted hxport
      exact ⟨next_sound hx hni, hxport', x.program_next.trans hxprogram⟩
    · rintro x ⟨hx, hxport, hxprogram⟩
      exact ⟨flush_sound hx, hxport, hxprogram⟩
  refine ⟨hsound, hprogram, hsound.lookups, ?_, ?_, ?_⟩
  · intro abort habort
    have hni := (step_uninterrupted huninterrupted).1
    obtain ⟨fault, hfault, -⟩ := step_abort hsound habort fun hi => hni (hi ▸ habort)
    exact ⟨fault, hfault⟩
  · intro limit abort habort
    exact advance_abort limit hsound huninterrupted habort
  · intro hstop e' he'
    exact (he'.like_of_not_running hstop).shows

/-- A chunk that reads twice. -/
def readingTwice : Program := ⟨#[#v[.read, .read, .nop, .nop, .nop]], by simp⟩

/-- A port with one byte whose second read finds no memory. -/
def scantPort : Port := (Port.ofBuffer [7]).failingAfter 1 .outOfMemory

/-- An engine that ran out of memory in its first chunk stays sound, and a further run leaves the byte
that was read on its stack. -/
theorem reached_sound_starved :
    scantPort.Uninterrupted ∧ (start readingTwice scantPort 0 false).step.1.status =
      .failed .outOfMemory ∧
    (start readingTwice scantPort 0 false).step.1.Sound ∧
    ((start readingTwice scantPort 0 false).step.1.run 9).1.stack = [7, 0] := by
  have hport : scantPort.Uninterrupted := by simp [Port.Uninterrupted, scantPort, Port.failingAfter,
    Port.ofBuffer]
  have hfailed : (start readingTwice scantPort 0 false).step.1.status = .failed .outOfMemory := rfl
  obtain ⟨hsound, -, -, -, -, hstay⟩ := reached_sound readingTwice scantPort 0 false hport (.step .refl)
  refine ⟨hport, hfailed, hsound, ?_⟩
  rw [(hstay (by rw [hfailed]; simp) _ (.run 9 .refl)).stack]
  rfl

end Engine

end ChunkMachine
