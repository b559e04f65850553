import ChunkMachine.Proofs.History

/-!
# What a step changes

A step moves four parts of an engine: its status, its current chunk, the number of steps and the flags. Which
of them have moved depends on the exit that the step leaves by. A program that halts is counted and not
marked. An underflow and a read without memory are neither counted nor marked, for the chunk did not come to
its end. A jump that fails is both counted and marked, since it is tried only after the chunk. And only a jump
that succeeds moves the current chunk.

`Changes` is this table, by the result of the execution of the current chunk. An interrupt has a row of its own.
It is no end of the program, and nothing of the four has moved.

## What is proved

* `Exits.changes`: every exit of a step changes what the table says.
* `visited_next`: no step changes another flag than the one of the current chunk, and none clears it.
* `step_changes`: both for every engine that calls of `step` and `run` can lead to, and what follows for the
  flags over a whole run.
-/

namespace ChunkMachine

namespace Engine

/-! ### The table -/

/-- The step was broken off for a fault, and the engine has recorded this fault. -/
structure FailsWith (e' : Engine) (abort : Option Abort) (fault : Fault) : Prop where
  raised : abort = some (.fault fault)
  recorded : e'.status = .failed fault

/-- The step has not come to its end: the flags, the number of steps and the current chunk are as before. -/
structure Uncounted (e e' : Engine) : Prop where
  code : e'.code = e.code
  steps : e'.steps = e.steps
  current : e'.current = e.current

/-- Where an engine goes whose chunk `i` came to its end, by the stack that it left. -/
def Arrives (e' : Engine) (abort : Option Abort) (i : Nat) : Stack → Prop
  | [] => e'.FailsWith abort .emptyStack ∧ e'.current = i
  | target :: _ =>
    if target.toNat < e'.code.chunkCount then
      abort = none ∧ e'.status = .running ∧ e'.current = target.toNat
    else e'.FailsWith abort (.invalidJump target) ∧ e'.current = i

/-- Chunk `i` came to its end: it is counted, it is marked and no other, and the stack says where the engine
goes. -/
structure Closes (e : Engine) (i : Nat) (e' : Engine) (abort : Option Abort) : Prop where
  steps : e'.steps = e.steps + 1
  program : e'.code.program = e.code.program
  marked : e'.code.visited[i]? = some true
  unmarked : ∀ k, k ≠ i → e'.code.visited[k]? = e.code.visited[k]?
  arrives : e'.Arrives abort i e'.stack

/-- What a step changes that executes chunk `i` with the operations `c`, by the result of the execution. -/
def Changes (e : Engine) (i : Nat) (c : Chunk) (e' : Engine) (abort : Option Abort) : Prop :=
  match (e.execution c).result with
  | .ok .halted =>
    abort = none ∧ e'.status = .halted ∧ e'.steps = e.steps + 1 ∧ e'.code = e.code ∧ e'.current = i
  | .ok _ => e.Closes i e' abort
  | .error (.underflow u) =>
    e'.FailsWith abort (.underflow u (c.opcode (e.execution c).slot) i) ∧ e.Uncounted e'
  | .error (.read .outOfMemory) => e'.FailsWith abort .outOfMemory ∧ e.Uncounted e'
  | .error (.read .interrupted) =>
    abort = some .interrupted ∧ e'.status = .running ∧ e.Uncounted e'
  | .error .noSlot => False

/-! ### The exits change what the table says -/

variable {e e' : Engine} {c : Chunk} {abort : Option Abort}

theorem arrives_of_nil {i : Nat} (hstack : e'.stack = []) (hfails : e'.FailsWith abort .emptyStack)
    (hcurrent : e'.current = i) : e'.Arrives abort i e'.stack := by
  rw [hstack]
  exact ⟨hfails, hcurrent⟩

theorem arrives_of_le {i : Nat} {target : Word} {rest : Stack} (hstack : e'.stack = target :: rest)
    (htarget : e'.code.chunkCount ≤ target.toNat) (hfails : e'.FailsWith abort (.invalidJump target))
    (hcurrent : e'.current = i) : e'.Arrives abort i e'.stack := by
  rw [hstack, Arrives, if_neg (Nat.not_lt.2 htarget)]
  exact ⟨hfails, hcurrent⟩

theorem arrives_of_lt {i : Nat} {target : Word} {rest : Stack} (hstack : e'.stack = target :: rest)
    (htarget : target.toNat < e'.code.chunkCount) (hgoes : abort = none ∧ e'.status = .running)
    (hcurrent : e'.current = target.toNat) : e'.Arrives abort i e'.stack := by
  rw [hstack, Arrives, if_pos htarget]
  exact ⟨hgoes.1, hgoes.2, hcurrent⟩

theorem changes_of_closes {i : Nat} {ending : Ending} (h : (e.execution c).result = .ok ending)
    (hending : ending ≠ .halted) (hcloses : e.Closes i e' abort) : e.Changes i c e' abort := by
  unfold Changes
  rw [h]
  cases ending with
  | completed | returned => exact hcloses
  | halted => exact absurd rfl hending

/-- A chunk that came to its end is marked, and no other. -/
theorem closes_of_mark (hplaced : e.Placed) (hcode : e'.code = e.code.mark e.current.toNat)
    (hsteps : e'.steps = e.steps + 1) (harrives : e'.Arrives abort e.current.toNat e'.stack) :
    e.Closes e.current.toNat e' abort where
  steps := hsteps
  program := by rw [hcode, Code.program_mark]
  marked := by simp [hcode, Code.mark, hplaced.toNat_lt]
  unmarked k hk := by rw [hcode, Code.mark, Array.getElem?_setIfInBounds_ne (Ne.symm hk)]
  arrives := harrives

/-- **Every exit of a step changes what the table says.** -/
theorem Exits.changes (h : Exits e c e' abort) (hplaced : e.Placed) (hrun : e.status = .running) :
    e.Changes e.current.toNat c e' abort := by
  have hcurrent : e.current = e.current.toNat := (Int.toNat_of_nonneg hplaced.current_nonneg).symm
  cases h with
  | halted trace hresult =>
    unfold Changes
    rw [hresult]
    exact ⟨rfl, rfl, rfl, rfl, hcurrent⟩
  | underflowed trace hresult hfault =>
    unfold Changes
    rw [hresult, hfault]
    exact ⟨⟨rfl, rfl⟩, rfl, rfl, rfl⟩
  | starved trace hresult =>
    unfold Changes
    rw [hresult]
    exact ⟨⟨rfl, rfl⟩, rfl, rfl, rfl⟩
  | interrupted trace hresult =>
    unfold Changes
    rw [hresult]
    exact ⟨rfl, hrun, rfl, rfl, rfl⟩
  | emptied trace hresult hending hstack =>
    refine changes_of_closes hresult hending (closes_of_mark hplaced rfl rfl ?_)
    exact arrives_of_nil hstack ⟨rfl, rfl⟩ hcurrent
  | strayed trace hresult hending hstack htarget =>
    refine changes_of_closes hresult hending (closes_of_mark hplaced rfl rfl ?_)
    exact arrives_of_le hstack htarget ⟨rfl, rfl⟩ hcurrent
  | moved trace hresult hending hstack htarget =>
    refine changes_of_closes hresult hending (closes_of_mark hplaced rfl rfl ?_)
    exact arrives_of_lt hstack htarget ⟨rfl, hrun⟩ rfl

/-- The fault that breaks a step off is the one that is recorded, and a step that records a fault is broken
off. -/
theorem Exits.fault_iff (h : Exits e c e' abort) (hrun : e.status = .running) (fault : Fault) :
    abort = some (.fault fault) ↔ e'.fault? = some fault := by
  cases h with
  | halted | interrupted | moved => simp [fault?, executed, closed, hrun]
  | underflowed | starved | emptied | strayed => simp [fault?]

/-! ### Flags -/

theorem Exits.code (h : Exits e c e' abort) :
    e'.code = e.code ∨ e'.code = e.code.mark e.current.toNat := by
  cases h with
  | halted | underflowed | starved | interrupted => exact .inl rfl
  | emptied | strayed | moved => exact .inr rfl

theorem code_next (e : Engine) :
    e.next.code = e.code ∨ e.next.code = e.code.mark e.current.toNat := by
  by_cases hrun : e.status = .running
  · cases hc : e.code.chunk e.current with
    | error missing => simp [next, step, running_iff.2 hrun, hc]
    | ok c => exact (exits_step hrun hc).code
  · rw [next_of_not_running hrun]
    exact .inl rfl

/-- **A step changes the flag of the current chunk at most, and clears none.** -/
theorem visited_next (e : Engine) (k : Nat) :
    e.next.code.visited[k]? = e.code.visited[k]? ∨
      k = e.current.toNat ∧ e.next.code.visited[k]? = some true := by
  rcases e.code_next with hcode | hcode
  · exact .inl (by rw [hcode])
  · rw [hcode, Code.mark, Array.getElem?_setIfInBounds]
    by_cases hk : e.current.toNat = k
    · subst hk
      by_cases hlt : e.current.toNat < e.code.visited.size
      · exact .inr ⟨rfl, by simp [hlt]⟩
      · exact .inl (by simp [hlt])
    · exact .inl (by rw [if_neg hk])

theorem marked_next {k : Nat} (h : e.code.Marked k) : e.next.code.Marked k := by
  rcases e.visited_next k with hsame | ⟨-, hmarked⟩
  · exact hsame.trans h
  · exact hmarked

/-- **A flag that is set stays set**, whatever steps and runs follow. -/
theorem Reaches.marked {k : Nat} (h : e.Reaches e') (hk : e.code.Marked k) : e'.code.Marked k :=
  h.keeps (P := fun x => x.code.Marked k) (fun _ hx => marked_next hx) (fun _ hx => hx) hk

/-! ### The account of a step -/

/-- **What a step changes.** Start an engine for any program on any port, move it by any calls of `step` and
`run`, and let it stand on chunk `i` and run. The next step changes what the table says. If the chunk halts the
program, the step is counted; the flags and the current chunk stay. If it underflows or finds no memory, the
engine fails, and the number of steps, the flags and the current chunk stay. If it comes to its end, the step is
counted and the flag of `i` is set and no other one is touched; then the engine fails in chunk `i` if the stack
is empty, or if the top word names no chunk, in which case the fault holds this word, and otherwise it goes on
in the chunk that the top word names. A step that is broken off for a fault leaves an engine that has recorded
the same fault, and no other step records one. So no flag is ever cleared, and no step changes two of them. -/
theorem step_changes (program : Program) (port : Port) (seed : Int) (tracing : Bool)
    (h : Reaches (start program port seed tracing) e) :
    (∀ i : Nat, e.status = .running → e.current = i →
      ∃ c, e.code.chunk i = .ok c ∧ e.Changes i c e.next e.step.2) ∧
    (e.status = .running → ∀ fault,
      e.step.2 = some (.fault fault) ↔ e.next.fault? = some fault) ∧
    (∀ e', Reaches e e' → ∀ k : Nat,
      e.code.visited[k]? = some true → e'.code.visited[k]? = some true) ∧
    ∀ k l : Nat, e.next.code.visited[k]? ≠ e.code.visited[k]? →
      e.next.code.visited[l]? ≠ e.code.visited[l]? → k = l := by
  have hplaced : e.Placed := h.keeps (P := Placed) (fun _ => next_placed) (fun _ => flush_placed)
    (start_placed program port seed tracing)
  obtain ⟨c, hc⟩ := hplaced.exists_chunk
  refine ⟨?_, ?_, fun e' he' k hk => he'.marked hk, ?_⟩
  · intro i hrun hcurrent
    have hchanges := (exits_step hrun hc).changes hplaced hrun
    rw [hcurrent] at hc
    rw [hcurrent, Int.toNat_natCast] at hchanges
    exact ⟨c, hc, hchanges⟩
  · intro hrun fault
    exact (exits_step hrun hc).fault_iff hrun fault
  · intro k l hk hl
    rcases e.visited_next k with hsame | ⟨hk, -⟩
    · exact absurd hsame hk
    · rcases e.visited_next l with hsame | ⟨hl, -⟩
      · exact absurd hsame hl
      · rw [hk, hl]

/-- Two chunks of which the first goes to the second, and the second counts up to four and so leads out of the
program. -/
def countingOut : Program :=
  ⟨#[#v[.nop, .nop, .nop, .nop, .inc], #v[.inc, .inc, .inc, .nop, .nop]], by simp⟩

/-- After the first of its steps. -/
def countedOnce : Engine := (start countingOut (.ofBuffer []) 0 false).next

/-- The second step fails with the word four in chunk 1. It is counted, and the flag of chunk 1 is set beside
the one of chunk 0. -/
theorem step_changes_counting_out :
    Reaches (start countingOut (.ofBuffer []) 0 false) countedOnce ∧
    countedOnce.status = .running ∧ countedOnce.current = (1 : Nat) ∧ countedOnce.stack = [1] ∧
    countedOnce.next.FailsWith countedOnce.step.2 (.invalidJump 4) ∧ countedOnce.next.current = 1 ∧
    countedOnce.next.steps = countedOnce.steps + 1 ∧
    countedOnce.next.code.visited[1]? = some true ∧ countedOnce.next.code.visited[0]? = some true := by
  have hreaches : Reaches (start countingOut (.ofBuffer []) 0 false) countedOnce := .step .refl
  have hrun : countedOnce.status = .running := rfl
  have hcurrent : countedOnce.current = (1 : Nat) := rfl
  obtain ⟨hstep, -, hmarked, -⟩ := step_changes countingOut (.ofBuffer []) 0 false hreaches
  obtain ⟨c, hc, hchanges⟩ := hstep 1 hrun hcurrent
  cases hc
  have hcloses : countedOnce.Closes 1 countedOnce.next countedOnce.step.2 := hchanges
  obtain ⟨hfails, hstays⟩ := hcloses.arrives
  exact ⟨hreaches, hrun, hcurrent, rfl, hfails, hstays, hcloses.steps, hcloses.marked,
    hmarked _ (.step .refl) 0 rfl⟩

end Engine

end ChunkMachine
