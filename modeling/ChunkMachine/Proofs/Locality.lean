import ChunkMachine.Proofs.Depth
import ChunkMachine.Proofs.Simulation

/-!
# Chunks that leave the bottom of the stack alone

Most operations look at the top of the stack only. They do the same whatever lies below the words that they
need, and they leave it there. Two operations are different: a rotation brings a word to the very bottom, and a
shuffle moves all of them and draws more numbers for a deeper stack. So a chunk in which neither of the two is
executed does not see what lies below a stack that it can do with, even where it uses this stack up.

A slot that is skipped, or that comes after the end of the chunk, can hold any operation. What counts are the
slots that are entered.

## What is proved

* `act_onto`: a local operation that does not underflow does the same on a deeper stack.
* `perform_onto`: so do the slots of a chunk in a row.
* `execute_local`: so does a chunk.
-/

namespace ChunkMachine

/-- The operation looks at the top of the stack only. -/
def Opcode.Local (op : Opcode) : Prop := op ≠ .rot ∧ op ≠ .shuf

/-- The machine with more words below its stack. -/
def Machine.onto (m : Machine) (below : Stack) : Machine := { m with stack := m.stack ++ below }

/-- **A local operation that does not underflow does the same on a deeper stack**, and leaves what lies below
where it is. -/
theorem act_onto {op : Opcode} {m m' : Machine} {trouble : Option Trouble} (hlocal : op.Local)
    (hact : op.act m = (m', trouble)) (hdeep : ∀ u, trouble ≠ some (.underflow u)) (below : Stack) :
    op.act (m.onto below) = (m'.onto below, trouble) := by
  rcases m with ⟨stack, port, generator⟩
  cases op with
  | rot => exact absurd rfl hlocal.1
  | shuf => exact absurd rfl hlocal.2
  | read =>
    simp only [Opcode.act, Machine.readByte, Machine.onto] at hact ⊢
    rcases hread : port.read with ⟨fault | b, port'⟩
    · simp only [hread] at hact ⊢
      cases hact
      rfl
    · simp only [hread] at hact ⊢
      cases hact
      rfl
  | write | drop | dup | inc | dec =>
    rcases stack with _ | ⟨a, stack⟩
    · cases hact
      exact absurd rfl (hdeep _)
    · cases hact
      rfl
  | swap | add | diff =>
    rcases stack with _ | ⟨a, _ | ⟨b, stack⟩⟩
    · cases hact
      exact absurd rfl (hdeep _)
    · cases hact
      exact absurd rfl (hdeep _)
    · cases hact
      rfl
  | skipNew | skipOld | ret | halt | nop =>
    cases hact
    rfl

/-- **Local operations in a row do the same on a deeper stack**, if none of them underflows. The slots after one
that fails are not entered, so they may hold any operation. -/
theorem perform_onto {c : Chunk} {slots : List Nat} (below : Stack) :
    ∀ {m m' : Machine} {failed : Option (Nat × Trouble)},
      (∀ slot ∈ c.entered slots m, (c.opcode slot).Local) → c.perform slots m = (m', failed) →
      (∀ slot u, failed ≠ some (slot, .underflow u)) →
      c.perform slots (m.onto below) = (m'.onto below, failed) := by
  induction slots with
  | nil =>
    intro m m' failed _ hperform _
    cases hperform
    rfl
  | cons slot slots ih =>
    intro m m' failed hlocal hperform hdeep
    obtain ⟨hfirst, hrest⟩ := List.forall_mem_cons.1 hlocal
    rw [Chunk.perform] at hperform ⊢
    rcases hact : (c.opcode slot).act m with ⟨m₁, _ | trouble⟩
    · rw [hact] at hrest hperform
      rw [act_onto hfirst hact (fun _ => (Option.some_ne_none _).symm) below]
      exact ih hrest hperform hdeep
    · rw [hact] at hperform
      cases hperform
      have hdeep' : ∀ u, some trouble ≠ some (.underflow u) := by
        rintro u hu
        cases hu
        exact hdeep slot u rfl
      rw [act_onto hfirst hact hdeep' below]

/-- **A chunk is local unless it rotates or shuffles.** Let a chunk be executed, with either flag and on any
port, without an underflow, and let no slot that is entered hold a rotation or a shuffle. With any words below
the stack the execution ends or breaks off in the same way and in the same slot, it reads and writes the same
bytes and leaves the same generator, and what it leaves of the stack has these words below it. -/
theorem execute_local (c : Chunk) (visited : Bool) (m : Machine) (below : Stack)
    (hlocal : ∀ slot ∈ c.entered (c.plan visited).slots m,
      c.opcode slot ≠ .rot ∧ c.opcode slot ≠ .shuf)
    (hdeep : ∀ slot u, ¬ (execute c.toList visited m).Underflows slot u) :
    let x := execute c.toList visited m
    let y := execute c.toList visited { m with stack := m.stack ++ below }
    y.result = x.result ∧ y.slot = x.slot ∧ y.machine.stack = x.machine.stack ++ below ∧
      y.machine.port = x.machine.port ∧ y.machine.generator = x.machine.generator := by
  intro x y
  have hx : x = (c.plan visited).follow c 0 m := execute_eq_follow c visited m
  have hy : y = (c.plan visited).follow c 0 (m.onto below) := execute_eq_follow c visited _
  rcases hperform : c.perform (c.plan visited).slots m with ⟨m', failed⟩
  rw [Plan.follow, hperform] at hx
  have hfailed : ∀ slot u, failed ≠ some (slot, .underflow u) := by
    rintro slot u rfl
    refine hdeep slot u ?_
    show x.Underflows slot u
    rw [hx]
    exact ⟨rfl, rfl⟩
  rw [Plan.follow, perform_onto below hlocal hperform hfailed] at hy
  rw [hx, hy]
  cases failed with
  | none => exact ⟨rfl, rfl, rfl, rfl, rfl⟩
  | some failed => exact ⟨rfl, rfl, rfl, rfl, rfl⟩

/-- A chunk that takes two words off and passes over a rotation. -/
def takingTwo : Chunk := #v[.swap, .write, .skipNew, .rot, .drop]

/-- A machine that has just these two words. -/
def twoWords : Machine := ⟨[5, 65], .ofBuffer [7], ⟨#[], 0⟩⟩

/-- The chunk uses the two words up, and leaves three more that lie below them. -/
theorem execute_local_used_up :
    (∀ slot ∈ takingTwo.entered (takingTwo.plan false).slots twoWords,
      takingTwo.opcode slot ≠ .rot ∧ takingTwo.opcode slot ≠ .shuf) ∧
    (∀ slot u, ¬ (execute takingTwo.toList false twoWords).Underflows slot u) ∧
    (execute takingTwo.toList false twoWords).machine.stack = [] ∧
    (execute takingTwo.toList false { twoWords with stack := twoWords.stack ++ [9, 0, 9] }).machine.stack =
      [9, 0, 9] ∧
    (execute takingTwo.toList false { twoWords with stack := twoWords.stack ++ [9, 0, 9] }).machine.port =
      (execute takingTwo.toList false twoWords).machine.port := by
  have hlocal : ∀ slot ∈ takingTwo.entered (takingTwo.plan false).slots twoWords,
      takingTwo.opcode slot ≠ .rot ∧ takingTwo.opcode slot ≠ .shuf := by decide
  have hresult : (execute takingTwo.toList false twoWords).result = .ok .completed := rfl
  have hdeep : ∀ slot u, ¬ (execute takingTwo.toList false twoWords).Underflows slot u := by
    rintro slot u ⟨-, hunderflow⟩
    rw [hresult] at hunderflow
    cases hunderflow
  have hempty : (execute takingTwo.toList false twoWords).machine.stack = [] := rfl
  obtain ⟨-, -, hstack, hport, -⟩ := execute_local takingTwo false twoWords [9, 0, 9] hlocal hdeep
  rw [hempty] at hstack
  exact ⟨hlocal, hdeep, hempty, hstack, hport⟩

/-- A rotation does see what lies below. -/
example : (execute [.rot, .nop, .nop, .nop, .nop] false ⟨[5, 65] ++ [9], .ofBuffer [], ⟨#[], 0⟩⟩).machine.stack ≠
    (execute [.rot, .nop, .nop, .nop, .nop] false ⟨[5, 65], .ofBuffer [], ⟨#[], 0⟩⟩).machine.stack ++ [9] := by
  decide

end ChunkMachine
