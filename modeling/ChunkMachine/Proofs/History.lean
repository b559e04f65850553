import ChunkMachine.Proofs.Invariant

/-!
# What a visited flag remembers

A run leaves no record of the chunks that it executed but one flag per chunk. This module compares
the flags with the whole history of the run: `Executes e j i` says that the `j`-th step from the engine
`e` executes chunk `i`.

A flag is set after the chunk, and only if the chunk came to its end: not if it halted, underflowed or
found no memory, but also if the jump after it failed (`Status.closes`). As a program does not go on
after any of these, the difference shows at the end of a run only. While the program goes on, a flag is
set just when the chunk was executed before.

## What is proved

* `marked_next_iff`: what one step does to the flags.
* `marked_after_iff`: the flags after any number of steps.
* `visited_iff_executed`: the flag that a chunk is executed with, what the skips make of it, and the
  flags at the end of the run.
-/

namespace ChunkMachine

/-- Did the chunk that led to the status come to its end? -/
def Status.closes : Status → Bool
  | .running | .failed .emptyStack | .failed (.invalidJump _) => true
  | .halted | .failed (.underflow ..) | .failed .outOfMemory => false

namespace Code

/-- Is the flag of a chunk number set? -/
def Marked (code : Code) (i : Nat) : Prop := code.visited[i]? = some true

theorem marked_mark_iff {code : Code} {i k : Nat} (hi : i < code.visited.size) :
    (code.mark i).Marked k ↔ code.Marked k ∨ k = i := by
  unfold Marked mark
  rw [Array.getElem?_setIfInBounds]
  by_cases hk : i = k
  · subst hk
    simp [hi]
  · simp [hk, Ne.symm hk]

theorem not_marked_ofProgram (program : Program) (i : Nat) : ¬ (ofProgram program).Marked i := by
  unfold Marked ofProgram
  rw [Array.getElem?_replicate]
  split <;> simp

end Code

namespace Engine

/-- The engine has just been started. -/
def Fresh (e : Engine) : Prop :=
  ∃ program port seed tracing, e = start program port seed tracing

/-- The `j`-th step from the engine executes chunk `i`. -/
def Executes (e : Engine) (j i : Nat) : Prop :=
  (e.after j).status = .running ∧ (e.after j).current = i

theorem flag_eq_true_iff (e : Engine) : e.flag = true ↔ e.code.Marked e.current.toNat := by
  unfold flag Code.Marked
  rw [Array.getD_eq_getD_getElem?]
  cases e.code.visited[e.current.toNat]? <;> simp

/-! ### One step -/

/-- A step marks the chunk that it executes if that came to its end, and no other. -/
theorem marked_next_iff {e : Engine} (h : e.Sound) (hni : e.step.2 ≠ some .interrupted) (i : Nat) :
    e.next.code.Marked i ↔
      e.code.Marked i ∨ (e.status = .running ∧ e.current = i) ∧ e.next.status.closes = true := by
  by_cases hrun : e.status = .running
  · obtain ⟨c, hc⟩ := h.exists_chunk
    have h0 := h.current_nonneg
    have hlt : e.current.toNat < e.code.visited.size := by
      have := h.current_lt
      rw [h.size_visited]
      omega
    have hcurrent : i = e.current.toNat ↔ e.current = i := by omega
    unfold next
    rcases hs : e.step with ⟨e', abort⟩
    rw [hs] at hni
    cases step_exits hrun hc hs with
    | halted => simp [executed, Status.closes]
    | underflowed trace hresult hfault => simp [executed, hfault, Status.closes]
    | starved => simp [executed, Status.closes]
    | interrupted => exact absurd rfl hni
    | emptied => simp [closed, Code.marked_mark_iff hlt, hcurrent, hrun, Status.closes]
    | strayed => simp [closed, Code.marked_mark_iff hlt, hcurrent, hrun, Status.closes]
    | moved => simp [closed, executed, Code.marked_mark_iff hlt, hcurrent, hrun, Status.closes]
  · rw [next_of_not_running hrun]
    simp [hrun]

/-! ### Any number of steps -/

/-- **The flags after any number of steps**: a flag is set if it was set at the start or if one of the
steps executed its chunk to the end. -/
theorem marked_after_iff {e : Engine} (h : e.Sound) (i k : Nat)
    (hni : ∀ j < k, (e.after j).step.2 ≠ some .interrupted) :
    (e.after k).code.Marked i ↔
      e.code.Marked i ∨ ∃ j < k, e.Executes j i ∧ (e.after (j + 1)).status.closes = true := by
  induction k with
  | zero => simp
  | succ k ih =>
    have hni' : ∀ j < k, (e.after j).step.2 ≠ some .interrupted := fun j hj =>
      hni j (Nat.lt_succ_of_lt hj)
    rw [after_succ, marked_next_iff (after_sound h k hni') (hni k (Nat.lt_succ_self k)), ih hni']
    constructor
    · rintro ((h₀ | ⟨j, hj, hex, hcl⟩) | ⟨hex, hcl⟩)
      · exact .inl h₀
      · exact .inr ⟨j, Nat.lt_succ_of_lt hj, hex, hcl⟩
      · exact .inr ⟨k, Nat.lt_succ_self k, hex, by rw [after_succ]; exact hcl⟩
    · rintro (h₀ | ⟨j, hj, hex, hcl⟩)
      · exact .inl (.inl h₀)
      · rcases Nat.lt_succ_iff_lt_or_eq.1 hj with hj | rfl
        · exact .inl (.inr ⟨j, hj, hex, hcl⟩)
        · exact .inr ⟨hex, by rw [← after_succ]; exact hcl⟩

theorem fresh_sound {e : Engine} (h : e.Fresh) : e.Sound := by
  obtain ⟨program, port, seed, tracing, rfl⟩ := h
  exact start_sound program port seed tracing

theorem fresh_not_marked {e : Engine} (h : e.Fresh) (i : Nat) : ¬ e.code.Marked i := by
  obtain ⟨program, port, seed, tracing, rfl⟩ := h
  exact Code.not_marked_ofProgram program i

/-- While the program goes on, a flag is set just when the chunk was executed before: every chunk so
far came to its end, for otherwise the program would have ended with it. -/
theorem marked_iff_executed {e : Engine} (h : e.Fresh) (i : Nat) {k : Nat}
    (hni : ∀ j < k, (e.after j).step.2 ≠ some .interrupted)
    (hrun : (e.after k).status = .running) :
    (e.after k).code.Marked i ↔ ∃ j < k, e.Executes j i := by
  rw [marked_after_iff (fresh_sound h) i k hni]
  constructor
  · rintro (h₀ | ⟨j, hj, hex, -⟩)
    · exact absurd h₀ (fresh_not_marked h i)
    · exact ⟨j, hj, hex⟩
  · rintro ⟨j, hj, hex⟩
    refine .inr ⟨j, hj, hex, ?_⟩
    rw [running_after_of_le hj hrun]
    rfl

/-- **The meaning of a visited flag.** Take any number `k` of steps of a fresh engine of which none is
interrupted. Every step that executes chunk `i` executes it with the flag that tells whether an earlier
step executed it. So an operation `skipNew` passes over the slot after it just in the first execution
of the chunk, and `skipOld` just in all the others. At the end the chunks that are marked are those
that some step executed to the end. A run with the limit `k` ends with the same engine, flushed. -/
theorem visited_iff_executed {e : Engine} (h : e.Fresh) (k : Nat)
    (hni : ∀ j < k, (e.after j).step.2 ≠ some .interrupted) :
    (∀ j < k, ∀ i, e.Executes j i → ∃ c seen,
      (e.after j).code.chunk i = .ok c ∧
      (e.after j).step = ((e.after j).record (.chunk i seen c (e.after j).stack)).conclude i c
        (execute c.toList seen (e.after j).machine) ∧
      (seen = true ↔ ∃ j' < j, e.Executes j' i) ∧
      ∀ slot ∈ (c.plan seen).slots, slot + 1 < slotsPerChunk →
        (c.opcode slot = .skipNew →
          (slot + 1 ∉ (c.plan seen).slots ↔ ¬ ∃ j' < j, e.Executes j' i)) ∧
        (c.opcode slot = .skipOld →
          (slot + 1 ∉ (c.plan seen).slots ↔ ∃ j' < j, e.Executes j' i))) ∧
    (∀ i, (e.after k).code.visited[i]? = some true ↔
      ∃ j < k, e.Executes j i ∧ (e.after (j + 1)).status.closes = true) ∧
    (e.run k).1 = (e.after k).flush := by
  have hsound := fresh_sound h
  refine ⟨?_, ?_, ?_⟩
  · rintro j hj i ⟨hrun, hcurrent⟩
    have hnij : ∀ j' < j, (e.after j').step.2 ≠ some .interrupted := fun j' hj' =>
      hni j' (Nat.lt_trans hj' hj)
    obtain ⟨c, hc⟩ := (after_sound hsound j hnij).exists_chunk
    have hseen : (e.after j).flag = true ↔ ∃ j' < j, e.Executes j' i := by
      rw [flag_eq_true_iff, hcurrent, Int.toNat_natCast, marked_iff_executed h i hnij hrun]
    refine ⟨c, (e.after j).flag, by rw [← hcurrent, hc], ?_, hseen, ?_⟩
    · rw [step_eq hrun hc, hcurrent, Int.toNat_natCast]
      rfl
    · intro slot hslot hlt
      constructor
      · intro hop
        rw [succ_mem_plan_iff hslot (by rw [hop]; rfl) hlt, hop, ← hseen]
        simp [Opcode.skips]
      · intro hop
        rw [succ_mem_plan_iff hslot (by rw [hop]; rfl) hlt, hop, ← hseen]
        simp [Opcode.skips]
  · intro i
    rw [show (e.after k).code.visited[i]? = some true ↔ (e.after k).code.Marked i from Iff.rfl,
      marked_after_iff hsound i k hni]
    simp [fresh_not_marked h i]
  · rw [← advance_eq_after k hsound hni]
    rfl

/-- An engine whose only chunk returns to itself and halts when it is visited again. -/
def revisiting : Engine :=
  start ⟨#[#v[.skipNew, .halt, .nop, .nop, .nop]], by simp⟩ (Port.ofBuffer []) 0 false

/-- The second visit halts in a chunk that stays marked for the first. -/
theorem visited_iff_executed_revisiting :
    revisiting.Fresh ∧ (∀ j < 2, (revisiting.after j).step.2 ≠ some .interrupted) ∧
    (revisiting.after 2).status = .halted ∧ revisiting.Executes 1 0 ∧
    (revisiting.after 2).code.visited[0]? = some true := by
  have hfresh : revisiting.Fresh := ⟨_, _, _, _, rfl⟩
  have hni : ∀ j < 2, (revisiting.after j).step.2 ≠ some .interrupted := by decide
  have hfirst : ∃ j < 2, revisiting.Executes j 0 ∧
      (revisiting.after (j + 1)).status.closes = true := ⟨0, by decide, ⟨rfl, rfl⟩, rfl⟩
  exact ⟨hfresh, hni, rfl, ⟨rfl, rfl⟩, ((visited_iff_executed hfresh 2 hni).2.1 0).2 hfirst⟩

end Engine

end ChunkMachine
