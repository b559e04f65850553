import ChunkMachine.Proofs.Plan
import ChunkMachine.Proofs.StackValues
import Mathlib.Data.List.DropRight
import Mathlib.Data.List.Rotate

/-!
# Rotations

A rotation sends the top word of a stack to its bottom. Rotations in a row turn the stack round: after as
many of them as it has words, every word is back in its place, so that only the remainder of their number
counts. A stack of one word is no case of its own. On an empty stack a rotation fails, and leaves it empty.

In a chunk a rotation stands among other operations. Some slots are passed over, and a chunk can end or break
off before its last slot. `executedFrom` follows an execution and lists the operations that it comes to. These,
one after the other, make of the machine all that the execution makes of it. So it does not matter over how
many chunks some rotations are spread, nor what stands in the slots between them, as long as nothing but
rotations touches the machine.

## What is proved

* `rotations_of_ne_nil`: rotations in a row turn a stack by as many places.
* `workAll_rotate`: the list that holds the values, top last, is turned the other way.
* `machine_execute`, `afterPasses_eq`: an execution does what the operations do that it comes to.
* `afterOps_of_turning`: operations of which only rotations touch the machine turn its stack.
* `rotations_cyclic`: the whole account.
-/

namespace ChunkMachine

/-! ### Lists turned by some places -/

section Turned

variable {α : Type} {xs : List α}

/-- Turning a list cuts it in two, at the remainder of the number of places, and exchanges the parts. -/
theorem rotate_eq_rtake_append_take (h : xs ≠ []) (k : Nat) :
    xs.rotate k = xs.rtake (xs.length - k % xs.length) ++ xs.take (k % xs.length) := by
  have hle : k % xs.length ≤ xs.length := (Nat.mod_lt k (List.length_pos_iff.2 h)).le
  rw [List.rotate_eq_drop_append_take_mod, List.rtake, Nat.sub_sub_self hle]

/-- Read from its end, a turned list is turned the other way. -/
theorem reverse_rotate_eq_rtake_append_take (h : xs ≠ []) (k : Nat) :
    (xs.rotate k).reverse =
      xs.reverse.rtake (k % xs.length) ++ xs.reverse.take (xs.length - k % xs.length) := by
  have hle : k % xs.length ≤ xs.length := (Nat.mod_lt k (List.length_pos_iff.2 h)).le
  rw [List.rotate_eq_drop_append_take_mod, List.reverse_append, List.rtake_eq_reverse_take_reverse,
    List.reverse_reverse, List.take_reverse, Nat.sub_sub_self hle]

end Turned

/-! ### Rotations in a row -/

namespace Stack

/-- Rotate so many times in a row. If one of the rotations fails, no other follows. -/
def rotations : Nat → Stack → Except Underflow Stack
  | 0, s => .ok s
  | k + 1, s =>
    match s.rotate with
    | .ok s => rotations k s
    | .error u => .error u

theorem rotate_of_ne_nil {s : Stack} (h : s ≠ []) : s.rotate = .ok (List.rotate s 1) := by
  obtain ⟨w, s, rfl⟩ := List.exists_cons_of_ne_nil h
  rw [List.rotate_cons_succ, List.rotate_zero]
  rfl

/-- **Rotations in a row turn a stack by as many places.** None of them fails. -/
theorem rotations_of_ne_nil (k : Nat) :
    ∀ {s : Stack}, s ≠ [] → s.rotations k = .ok (List.rotate s k) := by
  induction k with
  | zero =>
    intro s _
    rw [List.rotate_zero]
    rfl
  | succ k ih =>
    intro s h
    have hnext : List.rotate s 1 ≠ [] := fun hnil => h (List.rotate_eq_nil_iff.1 hnil)
    simp only [rotations, rotate_of_ne_nil h]
    rw [ih hnext, List.rotate_rotate, Nat.add_comm]

/-- A single word stays where it is. -/
example : Stack.rotations 4 [7] = .ok [7] := rfl

/-- Whether or not it fails, a rotation leaves the stack turned by one place. -/
theorem changed_rotate (s : Stack) : (s.changed s.rotate).2 = List.rotate s 1 := by
  by_cases h : s = []
  · subst h
    rfl
  · rw [rotate_of_ne_nil h]
    rfl

theorem after_rotate (k : Nat) : ∀ s : Stack, s.after (List.replicate k .rotate) = List.rotate s k := by
  induction k with
  | zero =>
    intro s
    rw [List.rotate_zero]
    rfl
  | succ k ih =>
    intro s
    calc
      s.after (List.replicate (k + 1) .rotate) =
          Stack.after (s.changed s.rotate).2 (List.replicate k .rotate) := rfl
      _ = List.rotate s (k + 1) := by rw [ih, changed_rotate, List.rotate_rotate, Nat.add_comm]

/-- **Rotations in place turn the list of the values the other way**: the list holds the top value last. -/
theorem workAll_rotate {s : Stack} (h : s ≠ []) (k : Nat) :
    workAll (List.replicate k .rotate) s.held =
      s.held.rtake (k % s.length) ++ s.held.take (s.length - k % s.length) := by
  have hvalues : s.values ≠ [] := fun hnil => h (List.map_eq_nil_iff.1 hnil)
  have hlength : s.values.length = s.length := List.length_map _
  rw [← held_after, after_rotate, held, values, List.map_rotate, ← hlength]
  exact reverse_rotate_eq_rtake_append_take hvalues k

end Stack

/-! ### The operations that an execution comes to -/

/-- The operations that are executed of the slots that are left, in order, up to the one that ends the chunk or
breaks it off. -/
def executedFrom (visited : Bool) :
    (left : Nat) → (skip : Bool) → List Opcode → Machine → List Opcode
  | 0, _, _, _ => []
  | left + 1, true, ops, m => executedFrom visited left false ops.tail m
  | _ + 1, false, [], _ => []
  | left + 1, false, op :: ops, m =>
    op ::
      match op.ending?, op.act m with
      | none, (m, none) => executedFrom visited left (op.skips visited) ops m
      | _, _ => []

/-- A chunk to be executed, of any length, and its flag. -/
structure Pass where
  ops : List Opcode
  visited : Bool

namespace Machine

/-- The machine after some operations in a row, whether or not they failed. -/
def afterOps (m : Machine) (ops : List Opcode) : Machine :=
  ops.foldl (fun m op => (op.act m).1) m

/-- The machine after some chunks in a row, whether or not they broke off. -/
def afterPasses (m : Machine) (passes : List Pass) : Machine :=
  passes.foldl (fun m pass => (execute pass.ops pass.visited m).machine) m

/-- The operations that some chunks in a row execute. -/
def executedIn : Machine → List Pass → List Opcode
  | _, [] => []
  | m, pass :: passes =>
    executedFrom pass.visited slotsPerChunk false pass.ops m ++
      (execute pass.ops pass.visited m).machine.executedIn passes

theorem afterOps_cons (m : Machine) (op : Opcode) (ops : List Opcode) :
    m.afterOps (op :: ops) = (op.act m).1.afterOps ops := rfl

theorem afterOps_append (m : Machine) (ops ops' : List Opcode) :
    m.afterOps (ops ++ ops') = (m.afterOps ops).afterOps ops' := List.foldl_append

end Machine

theorem machine_executeFrom (visited : Bool) (left : Nat) :
    ∀ (skip : Bool) (entered : Nat) (ops : List Opcode) (m : Machine),
      (executeFrom visited left skip entered ops m).machine =
        m.afterOps (executedFrom visited left skip ops m) := by
  induction left with
  | zero => intro skip entered ops m; rfl
  | succ left ih =>
    intro skip entered ops m
    cases skip with
    | true => exact ih false entered ops.tail m
    | false =>
      cases ops with
      | nil => rfl
      | cons op ops =>
        simp only [executeFrom, executedFrom]
        rw [Machine.afterOps_cons]
        cases hend : op.ending? with
        | some ending =>
          rw [act_of_ending hend]
          rfl
        | none =>
          rcases op.act m with ⟨m', _ | trouble⟩
          · exact ih _ _ ops m'
          · rfl

/-- **An execution does what the operations do that it comes to**, one after the other. -/
theorem machine_execute (ops : List Opcode) (visited : Bool) (m : Machine) :
    (execute ops visited m).machine =
      m.afterOps (executedFrom visited slotsPerChunk false ops m) :=
  machine_executeFrom visited slotsPerChunk false 0 ops m

/-- **So do executions in a row.** -/
theorem afterPasses_eq (passes : List Pass) :
    ∀ m : Machine, m.afterPasses passes = m.afterOps (m.executedIn passes) := by
  induction passes with
  | nil => intro m; rfl
  | cons pass passes ih =>
    intro m
    have hrest := ih (execute pass.ops pass.visited m).machine
    rw [Machine.executedIn, Machine.afterOps_append, ← machine_execute]
    exact hrest

/-! ### Rotations among other operations -/

/-- The operation does nothing to the machine. -/
def Opcode.Inert (op : Opcode) : Prop := ∀ m : Machine, op.act m = (m, none)

/-- What steers is inert, and so is the operation that does nothing. -/
theorem Opcode.inert_of_mem {op : Opcode} (h : op ∈ [skipNew, skipOld, ret, halt, nop]) :
    op.Inert := by
  intro m
  cases op with
  | skipNew | skipOld | ret | halt | nop => rfl
  | read | write | drop | dup | swap | inc | dec | add | rot | shuf | diff =>
    exact absurd h (by decide)

/-- Whether or not it fails, a rotation turns the stack by one place and touches nothing else. -/
theorem act_rot (m : Machine) :
    (Opcode.rot.act m).1 = { m with stack := List.rotate m.stack 1 } := by
  rcases m with ⟨stack, port, generator⟩
  by_cases h : stack = []
  · subst h
    rfl
  · simp only [Opcode.act, Stack.rotate_of_ne_nil h]
    rfl

/-- **Operations of which only rotations touch the machine turn its stack**, by as many places as there are
rotations among them. -/
theorem afterOps_of_turning (ops : List Opcode) :
    ∀ m : Machine, (∀ op ∈ ops, op ≠ .rot → op.Inert) →
      m.afterOps ops = { m with stack := List.rotate m.stack (ops.count .rot) } := by
  induction ops with
  | nil =>
    intro m _
    rw [List.count_nil, List.rotate_zero]
    rfl
  | cons op ops ih =>
    intro m hturning
    obtain ⟨hfirst, hrest⟩ := List.forall_mem_cons.1 hturning
    rw [Machine.afterOps_cons]
    by_cases hrot : op = .rot
    · subst hrot
      rw [act_rot, ih _ hrest, List.count_cons_self, List.rotate_rotate, Nat.add_comm]
    · rw [hfirst hrot m, ih m hrest, List.count_cons_of_ne hrot]

/-- **Rotations are cyclic.** Let a stack have `n` words, at least one, listed top first. Then `k` rotations in
a row succeed and give its last `n - k % n` words followed by its first `k % n`; the list that holds the values
with the top one last is turned the other way; and `n` rotations restore the order. On any machine a rotation
keeps the words of the stack, each as often as it was there, whether it succeeds or not. Let any chunks of any
length be executed in a row, on any machine and with any flags, and let none of the operations that are
executed touch the machine except for rotations. Then the stack is turned by as many places as rotations were
executed, the port and the generator are as before, and so are the words and their number. -/
theorem Stack.rotations_cyclic (s : Stack) :
    (s ≠ [] → ∀ k,
      s.rotations k = .ok (s.rtake (s.length - k % s.length) ++ s.take (k % s.length)) ∧
      workAll (List.replicate k .rotate) s.held =
        s.held.rtake (k % s.length) ++ s.held.take (s.length - k % s.length)) ∧
    (s ≠ [] → s.rotations s.length = .ok s) ∧
    ∀ m : Machine, m.stack = s →
      ((Opcode.rot.act m).1.stack.Perm s ∧ (Opcode.rot.act m).1.stack.length = s.length) ∧
      ∀ passes : List Pass, (∀ op ∈ m.executedIn passes, op ≠ .rot → op.Inert) →
        m.afterPasses passes =
          { m with stack := List.rotate s ((m.executedIn passes).count .rot) } ∧
        (m.afterPasses passes).stack.Perm s ∧ (m.afterPasses passes).stack.length = s.length := by
  refine ⟨fun h k => ⟨?_, workAll_rotate h k⟩, fun h => ?_, ?_⟩
  · rw [rotations_of_ne_nil k h, rotate_eq_rtake_append_take h]
  · rw [rotations_of_ne_nil _ h, List.rotate_length]
  · rintro m rfl
    refine ⟨?_, fun passes hturning => ?_⟩
    · rw [act_rot]
      exact ⟨List.rotate_perm m.stack 1, List.length_rotate m.stack 1⟩
    · have hturned := afterOps_of_turning (m.executedIn passes) m hturning
      rw [afterPasses_eq, hturned]
      exact ⟨rfl, List.rotate_perm m.stack _, List.length_rotate m.stack _⟩

/-- Chunks that execute five rotations and nothing else that touches the machine. A read is passed over, two
drops stand behind the end of their chunk, and the last chunk is too short. -/
def turningPasses : List Pass :=
  [⟨[.rot, .skipNew, .read, .rot, .nop], false⟩, ⟨[.rot, .rot, .halt, .drop, .drop], true⟩,
    ⟨[.rot], false⟩]

/-- A machine with three words, two of them alike. -/
def threeWords : Machine := ⟨[5, 65, 5], .ofBuffer [7], ⟨#[], 0⟩⟩

/-- Seven rotations of three words are one, and the five that the chunks execute are two. -/
theorem Stack.rotations_cyclic_wrapping :
    threeWords.stack ≠ [] ∧
    Stack.rotations 7 threeWords.stack = .ok [65, 5, 5] ∧
    Stack.rotations 3 threeWords.stack = .ok threeWords.stack ∧
    (∀ op ∈ threeWords.executedIn turningPasses, op ≠ .rot → op.Inert) ∧
    (threeWords.afterPasses turningPasses).stack = [5, 5, 65] ∧
    (threeWords.afterPasses turningPasses).stack.Perm threeWords.stack := by
  have hne : threeWords.stack ≠ [] := by decide
  have hexecuted : threeWords.executedIn turningPasses =
      [.rot, .skipNew, .rot, .nop, .rot, .rot, .halt, .rot] := rfl
  have hturning : ∀ op ∈ threeWords.executedIn turningPasses, op ≠ .rot → op.Inert := by
    have hinert : ∀ op ∈ threeWords.executedIn turningPasses, op ≠ .rot →
        op ∈ [Opcode.skipNew, .skipOld, .ret, .halt, .nop] := by decide
    exact fun op hop hrot => Opcode.inert_of_mem (hinert op hop hrot)
  obtain ⟨hrotations, hrestored, hmachine⟩ := Stack.rotations_cyclic threeWords.stack
  obtain ⟨-, hpasses⟩ := hmachine threeWords rfl
  obtain ⟨hafter, hperm, -⟩ := hpasses turningPasses hturning
  rw [hexecuted] at hafter
  exact ⟨hne, (hrotations hne 7).1, hrestored hne, hturning, congrArg Machine.stack hafter, hperm⟩

end ChunkMachine
