import ChunkMachine.Chunk.Execute
import Mathlib.Data.List.GetD

/-!
# Plans

Which slots of a chunk are executed, and how the chunk ends, is settled before anything is executed:
it depends on the operations of the chunk and on its visited flag alone. The *plan* of a chunk holds
both. Executing a chunk is performing the operations of the planned slots in order on the machine.

## What is proved

* `execute_eq_follow`: an execution follows the plan, for every machine. All that the other modules
  know of executions they know through this equation.
* `act_trouble`: what an operation that fails leaves behind.
* `succ_mem_plan_iff`: the slot after a planned one is planned unless it is skipped.
* `execute_static`: the whole account, together with the fact that a slot outside the plan can hold
  any operation.
-/

namespace ChunkMachine

/-- The operation in a slot of a chunk. -/
def Chunk.opcode (c : Chunk) (slot : Nat) : Opcode := c.toList.getD slot .nop

/-! ### The plan of a chunk -/

/-- The slots that are executed, and how the chunk ends unless one of them fails. -/
structure Plan where
  slots : List Nat
  ending : Ending
deriving DecidableEq

/-- The plan with one more slot before the others. -/
def Plan.entering (slot : Nat) (p : Plan) : Plan := { p with slots := slot :: p.slots }

/-- The plan for the operations from a slot on, of which the first is passed over if `skip`. -/
def planFrom (visited : Bool) : (skip : Bool) → (slot : Nat) → List Opcode → Plan
  | _, _, [] => ⟨[], .completed⟩
  | true, slot, _ :: ops => planFrom visited false (slot + 1) ops
  | false, slot, op :: ops =>
    match op.ending? with
    | some ending => ⟨[slot], ending⟩
    | none => (planFrom visited (op.skips visited) (slot + 1) ops).entering slot

/-- The plan of a chunk. -/
def Chunk.plan (c : Chunk) (visited : Bool) : Plan := planFrom visited false 0 c.toList

/-- Perform the operations of the given slots in order. If one fails, the answer holds its slot and
what went wrong, and the slots after it are not performed. -/
def Chunk.perform (c : Chunk) : List Nat → Machine → Machine × Option (Nat × Trouble)
  | [], m => (m, none)
  | slot :: slots, m =>
    match (c.opcode slot).act m with
    | (m, some trouble) => (m, some (slot, trouble))
    | (m, none) => c.perform slots m

/-- Follow a plan, `entered` being the last slot entered before it. -/
def Plan.follow (p : Plan) (c : Chunk) (entered : Nat) (m : Machine) : Execution :=
  match c.perform p.slots m with
  | (m, none) => ⟨m, p.slots.getLastD entered, .ok p.ending⟩
  | (m, some (slot, trouble)) => ⟨m, slot, .error trouble⟩

/-! ### Plans have increasing slots -/

theorem slots_planFrom (visited : Bool) (ops : List Opcode) : ∀ (skip : Bool) (slot : Nat),
    ∀ i ∈ (planFrom visited skip slot ops).slots, slot ≤ i ∧ i < slot + ops.length := by
  induction ops with
  | nil => intro skip slot i hi; cases skip <;> simp [planFrom] at hi
  | cons op ops ih =>
    intro skip slot i hi
    rw [List.length_cons]
    cases skip with
    | true =>
      have := ih false (slot + 1) i hi
      omega
    | false =>
      simp only [planFrom] at hi
      split at hi
      · simp only [List.mem_singleton] at hi
        omega
      · rcases List.mem_cons.1 hi with rfl | hi
        · omega
        · have := ih _ (slot + 1) i hi
          omega

theorem pairwise_slots_planFrom (visited : Bool) (ops : List Opcode) : ∀ (skip : Bool) (slot : Nat),
    (planFrom visited skip slot ops).slots.Pairwise (· < ·) := by
  induction ops with
  | nil => intro skip slot; cases skip <;> simp [planFrom]
  | cons op ops ih =>
    intro skip slot
    cases skip with
    | true => exact ih false (slot + 1)
    | false =>
      simp only [planFrom]
      split
      · simp
      · refine List.pairwise_cons.2 ⟨fun i hi => ?_, ih _ _⟩
        have := slots_planFrom visited ops _ (slot + 1) i hi
        omega

/-- Every planned slot is one of the chunk. -/
theorem lt_of_mem_plan {c : Chunk} {visited : Bool} {slot : Nat}
    (h : slot ∈ (c.plan visited).slots) : slot < slotsPerChunk := by
  have := slots_planFrom visited c.toList false 0 slot h
  simpa using this.2

/-! ### An execution follows the plan -/

theorem opcode_of_drop {c : Chunk} {slot : Nat} {op : Opcode} {ops : List Opcode}
    (h : c.toList.drop slot = op :: ops) : c.opcode slot = op := by
  have hop : c.toList[slot]? = some op := by
    rw [← List.head?_drop, h]
    rfl
  rw [Chunk.opcode, List.getD_eq_getElem?_getD, hop]
  rfl

theorem drop_succ_of_drop {c : Chunk} {slot : Nat} {op : Opcode} {ops : List Opcode}
    (h : c.toList.drop slot = op :: ops) : c.toList.drop (slot + 1) = ops := by
  rw [← List.tail_drop, h]
  rfl

/-- An operation that ends the chunk does nothing else. -/
theorem act_of_ending {op : Opcode} {ending : Ending} (h : op.ending? = some ending) (m : Machine) :
    op.act m = (m, none) := by
  cases op <;> simp_all [Opcode.ending?, Opcode.act]

/-- To follow a plan, follow its first slot and then the others. -/
theorem follow_entering (p : Plan) (c : Chunk) (slot entered : Nat) (m : Machine) :
    (p.entering slot).follow c entered m =
      match (c.opcode slot).act m with
      | (m, some trouble) => ⟨m, slot, .error trouble⟩
      | (m, none) => p.follow c slot m := by
  simp only [Plan.follow, Plan.entering, Chunk.perform, List.getLastD_cons]
  rcases (c.opcode slot).act m with ⟨m', _ | trouble⟩ <;> rfl

theorem executeFrom_eq_follow (c : Chunk) (visited : Bool) (ops : List Opcode) :
    ∀ (skip : Bool) (slot entered : Nat) (m : Machine), c.toList.drop slot = ops →
      slot + ops.length = slotsPerChunk →
      executeFrom visited ops.length skip entered ops m =
        (planFrom visited skip slot ops).follow c entered m := by
  induction ops with
  | nil => intro skip slot entered m _ _; cases skip <;> rfl
  | cons op ops ih =>
    intro skip slot entered m hdrop hlen
    have hslot : slotsPerChunk - (ops.length + 1) = slot := by
      rw [List.length_cons] at hlen
      omega
    have hrest := drop_succ_of_drop hdrop
    have hlen' : slot + 1 + ops.length = slotsPerChunk := by
      rw [List.length_cons] at hlen
      omega
    cases skip with
    | true => exact ih false (slot + 1) entered m hrest hlen'
    | false =>
      simp only [executeFrom, planFrom, List.length_cons, hslot]
      cases hend : op.ending? with
      | some ending =>
        simp [Plan.follow, Chunk.perform, opcode_of_drop hdrop, act_of_ending hend]
      | none =>
        simp only [follow_entering, opcode_of_drop hdrop]
        rcases op.act m with ⟨m', _ | trouble⟩
        · exact ih _ (slot + 1) slot m' hrest hlen'
        · rfl

/-- **An execution follows the plan.** -/
theorem execute_eq_follow (c : Chunk) (visited : Bool) (m : Machine) :
    execute c.toList visited m = (c.plan visited).follow c 0 m := by
  have hlen : c.toList.length = slotsPerChunk := by simp
  have := executeFrom_eq_follow c visited c.toList false 0 0 m rfl (by simp)
  rwa [hlen] at this

/-! ### Operations that fail -/

theorem onStack_trouble {m m' : Machine} {result : Except Underflow Stack} {trouble : Trouble}
    (h : m.onStack result = (m', some trouble)) : ∃ u, trouble = .underflow u ∧ m' = m := by
  rcases result with u | stack
  · simp only [Machine.onStack, Prod.mk.injEq, Option.some.injEq] at h
    exact ⟨u, h.2.symm, h.1.symm⟩
  · simp [Machine.onStack] at h

/-- **What a failed operation leaves behind**: an underflow changes nothing, and a failed read
changes only the port. -/
theorem act_trouble {op : Opcode} {m m' : Machine} {trouble : Trouble}
    (h : op.act m = (m', some trouble)) :
    (∃ u, trouble = .underflow u ∧ m' = m) ∨
      ∃ fault, trouble = .read fault ∧ op = .read ∧ m.port.read.1 = .error fault ∧
        m' = { m with port := m.port.read.2 } := by
  cases op with
  | read =>
    right
    simp only [Opcode.act, Machine.readByte] at h
    rcases hread : m.port.read with ⟨fault | b, port⟩
    · simp only [hread, Prod.mk.injEq, Option.some.injEq] at h
      exact ⟨fault, h.2.symm, rfl, rfl, h.1.symm⟩
    · simp [hread] at h
  | write =>
    left
    simp only [Opcode.act, Machine.writeByte] at h
    rcases hpop : Stack.popFor .output m.stack with u | ⟨w, stack⟩
    · simp only [hpop, Prod.mk.injEq, Option.some.injEq] at h
      exact ⟨u, h.2.symm, h.1.symm⟩
    · simp [hpop] at h
  | drop | dup | swap | inc | dec | add | rot | diff => exact .inl (onStack_trouble h)
  | shuf | skipNew | skipOld | ret | halt | nop => simp [Opcode.act] at h

/-- Where a performance fails, the slots before it were performed without failing. -/
theorem perform_failed {c : Chunk} {slots : List Nat} :
    ∀ {m m' : Machine} {slot : Nat} {trouble : Trouble},
      c.perform slots m = (m', some (slot, trouble)) →
      ∃ before after m₁, slots = before ++ slot :: after ∧ c.perform before m = (m₁, none) ∧
        (c.opcode slot).act m₁ = (m', some trouble) := by
  induction slots with
  | nil => intro m m' slot trouble h; simp [Chunk.perform] at h
  | cons first slots ih =>
    intro m m' slot trouble h
    rcases hact : (c.opcode first).act m with ⟨m₁, _ | t⟩
    · simp only [Chunk.perform, hact] at h
      obtain ⟨before, after, m₂, rfl, hbefore, hslot⟩ := ih h
      exact ⟨first :: before, after, m₂, rfl, by simp [Chunk.perform, hact, hbefore], hslot⟩
    · simp only [Chunk.perform, hact, Prod.mk.injEq, Option.some.injEq] at h
      obtain ⟨rfl, rfl, rfl⟩ := h
      exact ⟨[], slots, m, rfl, rfl, hact⟩

/-! ### Slots outside the plan -/

theorem perform_congr {c d : Chunk} {slots : List Nat}
    (h : ∀ slot ∈ slots, d.opcode slot = c.opcode slot) :
    ∀ m : Machine, d.perform slots m = c.perform slots m := by
  induction slots with
  | nil => intro m; rfl
  | cons slot slots ih =>
    intro m
    rw [Chunk.perform, Chunk.perform, h slot List.mem_cons_self]
    rcases (c.opcode slot).act m with ⟨m', _ | trouble⟩
    · exact ih (fun i hi => h i (List.mem_cons_of_mem _ hi)) m'
    · rfl

/-- The plan of a chunk is read from the planned slots alone. -/
theorem planFrom_congr {c d : Chunk} (visited : Bool) (ops : List Opcode) :
    ∀ (ops' : List Opcode) (skip : Bool) (slot : Nat), ops'.length = ops.length →
      c.toList.drop slot = ops → d.toList.drop slot = ops' →
      (∀ i ∈ (planFrom visited skip slot ops).slots, d.opcode i = c.opcode i) →
      planFrom visited skip slot ops' = planFrom visited skip slot ops := by
  induction ops with
  | nil =>
    intro ops' skip slot hlen _ _ _
    rw [List.length_eq_zero_iff.1 hlen]
  | cons op ops ih =>
    intro ops' skip slot hlen hc hd hsame
    obtain ⟨op', ops', rfl⟩ := List.exists_cons_of_length_eq_add_one hlen
    have hlen' : ops'.length = ops.length := by simpa using hlen
    have hc' := drop_succ_of_drop hc
    have hd' := drop_succ_of_drop hd
    cases skip with
    | true => exact ih ops' false (slot + 1) hlen' hc' hd' hsame
    | false =>
      have hslot : op' = op := by
        rw [← opcode_of_drop hc, ← opcode_of_drop hd]
        apply hsame
        rw [planFrom]
        split <;> simp [Plan.entering]
      subst hslot
      rw [planFrom, planFrom]
      cases hend : op'.ending? with
      | some ending => rfl
      | none =>
        have hrest : ∀ i ∈ (planFrom visited (op'.skips visited) (slot + 1) ops).slots,
            d.opcode i = c.opcode i := by
          intro i hi
          apply hsame
          simp [planFrom, hend, Plan.entering, hi]
        simp only [ih ops' _ (slot + 1) hlen' hc' hd' hrest]

/-! ### Skips -/

/-- The first slot is planned unless it is passed over. -/
theorem self_mem_planFrom (visited skip : Bool) (slot : Nat) (op : Opcode) (ops : List Opcode) :
    slot ∈ (planFrom visited skip slot (op :: ops)).slots ↔ skip = false := by
  cases skip with
  | true =>
    have := slots_planFrom visited ops false (slot + 1) slot
    simp only [planFrom]
    constructor
    · intro h
      have := this h
      omega
    · simp
  | false =>
    rw [planFrom]
    split <;> simp [Plan.entering]

theorem succ_mem_planFrom_iff {c : Chunk} (visited : Bool) (ops : List Opcode) :
    ∀ (skip : Bool) (slot i : Nat), c.toList.drop slot = ops →
      i ∈ (planFrom visited skip slot ops).slots → (c.opcode i).ending? = none →
      i + 1 < slot + ops.length →
      (i + 1 ∈ (planFrom visited skip slot ops).slots ↔ (c.opcode i).skips visited = false) := by
  induction ops with
  | nil => intro skip slot i _ hi; cases skip <;> simp [planFrom] at hi
  | cons op ops ih =>
    intro skip slot i hc hi hend hlt
    have hc' := drop_succ_of_drop hc
    rw [List.length_cons] at hlt
    cases skip with
    | true => exact ih false (slot + 1) i hc' hi hend (by omega)
    | false =>
      rw [planFrom] at hi ⊢
      cases hop : op.ending? with
      | some ending =>
        simp only [hop, List.mem_singleton] at hi
        rw [hi, opcode_of_drop hc, hop] at hend
        cases hend
      | none =>
        simp only [hop, Plan.entering] at hi ⊢
        rcases List.mem_cons.1 hi with rfl | hi
        · obtain ⟨op', ops, rfl⟩ := List.exists_cons_of_length_pos (l := ops) (by omega)
          rw [opcode_of_drop hc, List.mem_cons, self_mem_planFrom]
          simp
        · have hle := slots_planFrom visited ops _ (slot + 1) i hi
          rw [List.mem_cons, ih _ (slot + 1) i hc' hi hend (by omega)]
          constructor
          · rintro (h | h)
            · omega
            · exact h
          · exact .inr

/-- The slot after a planned one that goes on is planned unless that one skips it. -/
theorem succ_mem_plan_iff {c : Chunk} {visited : Bool} {slot : Nat}
    (hslot : slot ∈ (c.plan visited).slots) (hend : (c.opcode slot).ending? = none)
    (hlt : slot + 1 < slotsPerChunk) :
    slot + 1 ∈ (c.plan visited).slots ↔ (c.opcode slot).skips visited = false :=
  succ_mem_planFrom_iff visited c.toList false 0 slot rfl hslot hend (by simpa using hlt)

/-! ### The account of an execution -/

/-- **Control flow inside a chunk is static.** The plan of a chunk is an increasing list of its slots
and an ending. An execution performs the operations of these slots in order: if none fails, the chunk
ends as planned; if one fails, the execution breaks off in its slot, after the slots planned before it
and with nothing else changed but what a failed read did to the port. Operations outside the plan have
no influence, neither on the plan nor on the execution. -/
theorem execute_static (c : Chunk) (visited : Bool) (m : Machine) :
    (c.plan visited).slots.Pairwise (· < ·) ∧
    (∀ slot ∈ (c.plan visited).slots, slot < slotsPerChunk) ∧
    ((∃ m', c.perform (c.plan visited).slots m = (m', none) ∧
        execute c.toList visited m =
          ⟨m', (c.plan visited).slots.getLastD 0, .ok (c.plan visited).ending⟩) ∨
      ∃ before slot after m₁ m₂ trouble,
        (c.plan visited).slots = before ++ slot :: after ∧
        c.perform before m = (m₁, none) ∧
        (c.opcode slot).act m₁ = (m₂, some trouble) ∧
        ((∃ u, trouble = .underflow u ∧ m₂ = m₁) ∨
          ∃ fault, trouble = .read fault ∧ c.opcode slot = .read ∧
            m₁.port.read.1 = .error fault ∧ m₂ = { m₁ with port := m₁.port.read.2 }) ∧
        execute c.toList visited m = ⟨m₂, slot, .error trouble⟩) ∧
    ∀ d : Chunk, (∀ slot ∈ (c.plan visited).slots, d.opcode slot = c.opcode slot) →
      d.plan visited = c.plan visited ∧
        execute d.toList visited m = execute c.toList visited m := by
  refine ⟨pairwise_slots_planFrom visited _ false 0, fun slot => lt_of_mem_plan, ?_, ?_⟩
  · rw [execute_eq_follow, Plan.follow]
    rcases hperform : c.perform (c.plan visited).slots m with ⟨m', _ | ⟨slot, trouble⟩⟩
    · exact .inl ⟨m', rfl, rfl⟩
    · obtain ⟨before, after, m₁, hslots, hbefore, hact⟩ := perform_failed hperform
      exact .inr ⟨before, slot, after, m₁, m', trouble, hslots, hbefore, hact, act_trouble hact, rfl⟩
  · intro d hsame
    have hplan : d.plan visited = c.plan visited :=
      planFrom_congr visited c.toList d.toList false 0 (by simp) rfl rfl hsame
    refine ⟨hplan, ?_⟩
    rw [execute_eq_follow, execute_eq_follow, hplan, Plan.follow, Plan.follow,
      perform_congr hsame]

/-- A skip may hide a halt, and what stands after a return is never reached. -/
example : Chunk.plan #v[.skipNew, .halt, .skipOld, .ret, .halt] false = ⟨[0, 2, 3], .returned⟩ := by
  decide

end ChunkMachine
