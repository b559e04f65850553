import ChunkMachine.Proofs.Step

/-!
# Ports that answer alike

Two ports answer alike if no sequence of reads and writes tells them apart. This is stated of a
relation between ports (`Port.Simulation`): related ports give the same answer to a read and stay
related under reads and writes. Engines that differ in related ports only make the same steps
(`step_like`, `after_like`).

A weaker relation holds for a number of reads only (`Port.Rationed`). Engines that differ in ports
related for as many reads as they are going to make still make the same steps (`step_within`,
`after_within`). The number of reads in a step is counted over the slots that it enters, of which the
last one may have failed. A relation without a number is the special case in which the number does not
matter, so everything is proved for the weaker relation.

Whether an engine is traced, and what its trace and its seed are, has no part in this: the relation
does not compare them.

The first relation of this kind is that two ports differ in how much they have flushed. So an engine
that is flushed on the way shows the same as one that is not (`Shows`).
-/

namespace ChunkMachine

/-! ### Related ports -/

/-- Related ports cannot be told apart by reading and writing. -/
structure Port.Simulation (R : Port → Port → Prop) : Prop where
  read : ∀ {p q : Port}, R p q → p.read.1 = q.read.1 ∧ R p.read.2 q.read.2
  write : ∀ {p q : Port} (w : Word), R p q → R (p.write w) (q.write w)

/-- The word that is pushed for what was read. -/
def Port.wordRead (b : Option UInt8) : Word := b.elim 0 UInt8.toUInt32

/-- Ports related by `R n` cannot be told apart by writing and by `n` reads: a read pushes the same
word in both, or fails in both for the same reason, and one read less is left. -/
structure Port.Rationed (R : Nat → Port → Port → Prop) : Prop where
  read : ∀ {n : Nat} {p q : Port}, R (n + 1) p q →
    p.read.1.map wordRead = q.read.1.map wordRead ∧ R n p.read.2 q.read.2
  write : ∀ {n : Nat} {p q : Port} (w : Word), R n p q → R n (p.write w) (q.write w)

theorem Port.Simulation.rationed {R : Port → Port → Prop} (hR : Port.Simulation R) :
    Port.Rationed fun _ => R where
  read h := ⟨by rw [(hR.read h).1], (hR.read h).2⟩
  write w h := hR.write w h

/-- Machines that agree but for their ports, which are related. -/
structure Machine.Like (R : Port → Port → Prop) (m n : Machine) : Prop where
  stack : m.stack = n.stack
  generator : m.generator = n.generator
  port : R m.port n.port

/-- Engines that agree but for their ports, which are related, and for what they trace. -/
structure Engine.Like (R : Port → Port → Prop) (e e' : Engine) : Prop where
  code : e.code = e'.code
  machine : Machine.Like R e.machine e'.machine
  status : e.status = e'.status
  current : e.current = e'.current
  steps : e.steps = e'.steps

/-! ### Counting reads -/

/-- The slots that are entered when the given ones are performed in order: all of them, or those up to
the first that fails. -/
def Chunk.entered (c : Chunk) : List Nat → Machine → List Nat
  | [], _ => []
  | slot :: slots, m =>
    slot ::
      match (c.opcode slot).act m with
      | (_, some _) => []
      | (m, none) => c.entered slots m

/-- The number of reads in some slots of a chunk. -/
def Chunk.readsIn (c : Chunk) (slots : List Nat) : Nat :=
  slots.countP fun slot => c.opcode slot = .read

namespace Engine

/-- The number of reads that the next step executes. -/
def reads (e : Engine) : Nat :=
  match e.status, e.code.chunk e.current with
  | .running, .ok c => c.readsIn (c.entered (c.plan e.flag).slots e.machine)
  | _, _ => 0

/-- The number of reads that the next `k` steps execute. -/
def readsWithin : (k : Nat) → Engine → Nat
  | 0, _ => 0
  | k + 1, e => e.reads + readsWithin k e.next

theorem reads_of_running {e : Engine} {c : Chunk} (hrun : e.status = .running)
    (hc : e.code.chunk e.current = .ok c) :
    e.reads = c.readsIn (c.entered (c.plan e.flag).slots e.machine) := by
  simp only [reads, hrun, hc]

end Engine

section Simulation

variable {R : Nat → Port → Port → Prop} {S : Port → Port → Prop}

/-! ### Chunks -/

theorem onStack_like {m n : Machine} (h : m.Like S n) (result : Except Underflow Stack) :
    (m.onStack result).1.Like S (n.onStack result).1 ∧
      (m.onStack result).2 = (n.onStack result).2 := by
  cases result with
  | error u => exact ⟨h, rfl⟩
  | ok stack => exact ⟨⟨rfl, h.generator, h.port⟩, rfl⟩

/-- What a read does to the machine, by the word that is read. -/
theorem readByte_eq (m : Machine) :
    m.readByte =
      match m.port.read.1.map Port.wordRead with
      | .ok w => ({ m with stack := Stack.push w m.stack, port := m.port.read.2 }, none)
      | .error fault => ({ m with port := m.port.read.2 }, some (.read fault)) := by
  unfold Machine.readByte
  rcases m.port.read with ⟨fault | b, port⟩ <;> rfl

theorem readByte_within (hR : Port.Rationed R) {k : Nat} {m n : Machine}
    (h : m.Like (R (k + 1)) n) :
    m.readByte.1.Like (R k) n.readByte.1 ∧ m.readByte.2 = n.readByte.2 := by
  obtain ⟨hword, hport⟩ := hR.read h.port
  rw [readByte_eq, readByte_eq, ← hword]
  cases m.port.read.1.map Port.wordRead with
  | error fault => exact ⟨⟨h.stack, h.generator, hport⟩, rfl⟩
  | ok w => exact ⟨⟨by rw [h.stack], h.generator, hport⟩, rfl⟩

theorem writeByte_like (hwrite : ∀ {p q : Port} (w : Word), S p q → S (p.write w) (q.write w))
    {m n : Machine} (h : m.Like S n) :
    m.writeByte.1.Like S n.writeByte.1 ∧ m.writeByte.2 = n.writeByte.2 := by
  unfold Machine.writeByte
  rw [← h.stack]
  rcases Stack.popFor .output m.stack with u | ⟨w, stack⟩
  · exact ⟨h, rfl⟩
  · exact ⟨⟨rfl, h.generator, hwrite w h.port⟩, rfl⟩

theorem shuffle_like {m n : Machine} (h : m.Like S n) : m.shuffle.Like S n.shuffle := by
  unfold Machine.shuffle
  rw [← h.stack, ← h.generator]
  exact ⟨rfl, rfl, h.port⟩

/-- An operation does the same to related machines; a read uses one of the reads up. -/
theorem act_within (hR : Port.Rationed R) (op : Opcode) {k : Nat} {m n : Machine}
    (h : m.Like (R (k + if op = .read then 1 else 0)) n) :
    (op.act m).1.Like (R k) (op.act n).1 ∧ (op.act m).2 = (op.act n).2 := by
  cases op with
  | read => exact readByte_within hR h
  | write => exact writeByte_like hR.write h
  | shuf => exact ⟨shuffle_like h, rfl⟩
  | drop | dup | swap | inc | dec | add | rot | diff =>
    simp only [Opcode.act, h.stack]
    exact onStack_like h _
  | skipNew | skipOld | ret | halt | nop => exact ⟨h, rfl⟩

/-- Slots do the same to machines that are related for the reads among the slots that are entered. -/
theorem perform_within (hR : Port.Rationed R) (c : Chunk) (slots : List Nat) {k : Nat} :
    ∀ {m n : Machine}, m.Like (R (k + c.readsIn (c.entered slots m))) n →
      (c.perform slots m).1.Like (R k) (c.perform slots n).1 ∧
        (c.perform slots m).2 = (c.perform slots n).2 := by
  induction slots with
  | nil => intro m n h; exact ⟨h, rfl⟩
  | cons slot slots ih =>
    intro m n h
    simp only [Chunk.entered, Chunk.readsIn, List.countP_cons, decide_eq_true_eq,
      ← Nat.add_assoc] at h
    obtain ⟨hlike, htrouble⟩ := act_within hR (c.opcode slot) h
    rcases hm : (c.opcode slot).act m with ⟨m', trouble⟩
    rcases hn : (c.opcode slot).act n with ⟨n', trouble'⟩
    rw [hm, hn] at hlike htrouble
    simp only at hlike htrouble
    subst htrouble
    simp only [Chunk.perform, hm, hn]
    cases trouble with
    | none => exact ih hlike
    | some trouble => exact ⟨hlike, rfl⟩

theorem perform_like (hS : Port.Simulation S) (c : Chunk) (slots : List Nat) {m n : Machine}
    (h : m.Like S n) :
    (c.perform slots m).1.Like S (c.perform slots n).1 ∧
      (c.perform slots m).2 = (c.perform slots n).2 :=
  perform_within (R := fun _ => S) (k := 0) hS.rationed c slots h

/-- A chunk does the same to machines that are related for the reads that it executes. -/
theorem execute_within (hR : Port.Rationed R) (c : Chunk) (visited : Bool) {k : Nat} {m n : Machine}
    (h : m.Like (R (k + c.readsIn (c.entered (c.plan visited).slots m))) n) :
    (execute c.toList visited m).machine.Like (R k) (execute c.toList visited n).machine ∧
      (execute c.toList visited m).slot = (execute c.toList visited n).slot ∧
      (execute c.toList visited m).result = (execute c.toList visited n).result := by
  rw [execute_eq_follow, execute_eq_follow, Plan.follow, Plan.follow]
  obtain ⟨hlike, htrouble⟩ := perform_within hR c (c.plan visited).slots h
  rcases hm : c.perform (c.plan visited).slots m with ⟨m', trouble⟩
  rcases hn : c.perform (c.plan visited).slots n with ⟨n', trouble'⟩
  rw [hm, hn] at hlike htrouble
  simp only at hlike htrouble
  subst htrouble
  cases trouble with
  | none => exact ⟨hlike, rfl, rfl⟩
  | some failed => exact ⟨hlike, rfl, rfl⟩

/-! ### Steps -/

namespace Engine

theorem record_like {e e' : Engine} (h : e.Like S e') (event event' : TraceEvent) :
    (e.record event).Like S (e'.record event') := by
  obtain ⟨trace, hrecord⟩ := e.exists_record event
  obtain ⟨trace', hrecord'⟩ := e'.exists_record event'
  rw [hrecord, hrecord']
  exact ⟨h.code, h.machine, h.status, h.current, h.steps⟩

theorem fail_like {e e' : Engine} (h : e.Like S e') (fault : Fault) :
    (e.fail fault).1.Like S (e'.fail fault).1 ∧ (e.fail fault).2 = (e'.fail fault).2 :=
  ⟨⟨h.code, h.machine, rfl, h.current, h.steps⟩, rfl⟩

theorem jump_like {e e' : Engine} (h : e.Like S e') (index : Nat) :
    (e.jump index).1.Like S (e'.jump index).1 ∧ (e.jump index).2 = (e'.jump index).2 := by
  have hmarked : Like S { e with code := e.code.mark index }
      { e' with code := e'.code.mark index } :=
    ⟨by rw [h.code], h.machine, h.status, h.current, h.steps⟩
  unfold jump
  simp only [← h.code, ← h.machine.stack]
  rw [← h.code] at hmarked
  cases e.machine.stack with
  | nil => exact fail_like hmarked _
  | cons target rest =>
    simp only
    split
    · exact ⟨⟨rfl, h.machine, h.status, rfl, h.steps⟩, rfl⟩
    · exact fail_like hmarked _

/-- What is made of two executions that agree but for their ports. How the ports were related before
the executions does not matter. -/
theorem conclude_like {S' : Port → Port → Prop} {e e' : Engine} (h : e.Like S' e') (index : Nat)
    (c : Chunk) {x y : Execution} (hmachine : x.machine.Like S y.machine) (hslot : x.slot = y.slot)
    (hresult : x.result = y.result) :
    (e.conclude index c x).1.Like S (e'.conclude index c y).1 ∧
      (e.conclude index c x).2 = (e'.conclude index c y).2 := by
  have hexecuted : Like S { e with machine := x.machine } { e' with machine := y.machine } :=
    ⟨h.code, hmachine, h.status, h.current, h.steps⟩
  have hcounted : Like S { e with machine := x.machine, steps := e.steps + 1 }
      { e' with machine := y.machine, steps := e'.steps + 1 } :=
    ⟨h.code, hmachine, h.status, h.current, by rw [h.steps]⟩
  have hhalted : Like S { e with machine := x.machine, steps := e.steps + 1, status := .halted }
      { e' with machine := y.machine, steps := e'.steps + 1, status := .halted } :=
    ⟨h.code, hmachine, rfl, h.current, by rw [h.steps]⟩
  unfold conclude
  rw [← hresult, ← hslot]
  rcases x.result with (u | (_ | _) | _) | (_ | _ | _)
  · exact fail_like hexecuted _
  · exact fail_like hexecuted _
  · exact ⟨hexecuted, rfl⟩
  · exact ⟨hexecuted, rfl⟩
  · exact jump_like hcounted index
  · exact jump_like hcounted index
  · exact ⟨record_like hhalted _ _, rfl⟩

/-- **Engines that are related for the reads of a step make the same step**, and what breaks off one
breaks off the other. -/
theorem step_within (hR : Port.Rationed R) {k : Nat} {e e' : Engine}
    (h : e.Like (R (k + e.reads)) e') :
    e.step.1.Like (R k) e'.step.1 ∧ e.step.2 = e'.step.2 := by
  by_cases hrun : e.status = .running
  · have hrun' : e'.status = .running := h.status ▸ hrun
    cases hc : e.code.chunk e.current with
    | error fault =>
      have hc' : e'.code.chunk e'.current = .error fault := by rw [← h.code, ← h.current, hc]
      rw [step, step, if_pos (running_iff.2 hrun), if_pos (running_iff.2 hrun'), hc, hc']
      simp only [reads, hrun, hc] at h
      exact ⟨h, rfl⟩
    | ok c =>
      have hc' : e'.code.chunk e'.current = .ok c := by rw [← h.code, ← h.current, hc]
      have hflag : e.flag = e'.flag := by rw [flag, flag, h.code, h.current]
      have hbefore := h.machine
      rw [reads_of_running hrun hc] at hbefore
      obtain ⟨hmachine, hslot, hresult⟩ := execute_within hR c e.flag hbefore
      rw [step_eq hrun hc, step_eq hrun' hc', ← h.current]
      refine conclude_like (record_like h _ _) _ c ?_ ?_ ?_
      · rw [execution, execution, ← hflag]
        exact hmachine
      · rw [execution, execution, ← hflag]
        exact hslot
      · rw [execution, execution, ← hflag]
        exact hresult
  · have hrun' : e'.status ≠ .running := h.status ▸ hrun
    have hreads : e.reads = 0 := by
      unfold reads
      split
      · rename_i hstatus _
        exact absurd hstatus hrun
      · rfl
    rw [step_of_not_running hrun, step_of_not_running hrun']
    rw [hreads] at h
    exact ⟨h, rfl⟩

/-- **Engines that are related for the reads of some steps make the same steps.** -/
theorem after_within (hR : Port.Rationed R) {k : Nat} (j : Nat) :
    ∀ {e e' : Engine}, e.Like (R (k + e.readsWithin j)) e' →
      (e.after j).Like (R k) (e'.after j) := by
  induction j with
  | zero => intro e e' h; exact h
  | succ j ih =>
    intro e e' h
    rw [readsWithin, Nat.add_comm e.reads, ← Nat.add_assoc] at h
    exact ih (step_within hR h).1

/-- **Related engines make the same step**, and what breaks off one breaks off the other. -/
theorem step_like (hS : Port.Simulation S) {e e' : Engine} (h : e.Like S e') :
    e.step.1.Like S e'.step.1 ∧ e.step.2 = e'.step.2 :=
  step_within (R := fun _ => S) (k := 0) hS.rationed h

/-- **Related engines make the same steps.** -/
theorem after_like (hS : Port.Simulation S) {e e' : Engine} (h : e.Like S e') (j : Nat) :
    (e.after j).Like S (e'.after j) :=
  after_within (R := fun _ => S) (k := 0) hS.rationed j h

end Engine

end Simulation

/-! ### Flushing -/

namespace Endpoint

/-- A flush before a read is not seen by the read. -/
theorem read_flush (e : Endpoint) :
    e.flush.read.1 = e.read.1 ∧ e.flush.read.2.flush = e.read.2.flush := by
  rcases e with ⟨_ | ⟨b, input⟩, written⟩ | ⟨_ | source, _ | sink⟩ <;>
    simp [flush, read]

/-- A flush before a write makes no difference after another one. -/
theorem write_flush (b : UInt8) (e : Endpoint) : (e.flush.write b).flush = (e.write b).flush := by
  rcases e with ⟨input, written⟩ | ⟨reader, _ | sink⟩ <;> simp [flush, write]

@[simp] theorem flush_flush (e : Endpoint) : e.flush.flush = e.flush := by
  rcases e with ⟨input, written⟩ | ⟨reader, _ | sink⟩ <;> simp [flush]

@[simp] theorem output_flush (e : Endpoint) : e.flush.output = e.output := by
  rcases e with ⟨input, written⟩ | ⟨reader, _ | sink⟩ <;> simp [flush, output]

@[simp] theorem unread_flush (e : Endpoint) : e.flush.unread = e.unread := by
  rcases e with ⟨input, written⟩ | ⟨reader, _ | sink⟩ <;> simp [flush, unread]

end Endpoint

namespace Port

/-- Ports that differ in how much of the output they have flushed. -/
def FlushAlike (p q : Port) : Prop := p.flush = q.flush

theorem flush_flush (p : Port) : p.flush.flush = p.flush := by
  simp [flush]

theorem read_flush (p : Port) :
    p.flush.read.1 = p.read.1 ∧ p.flush.read.2.flush = p.read.2.flush := by
  obtain ⟨hfst, hsnd⟩ := p.endpoint.read_flush
  rcases p with ⟨endpoint, _ | ⟨⟨_ | n, fault⟩, faults⟩⟩ <;>
    simp_all [flush, read]

theorem write_flush (w : Word) (p : Port) : (p.flush.write w).flush = (p.write w).flush := by
  simp [flush, write, Endpoint.write_flush]

/-- How much has been flushed cannot be told by reading and writing. -/
theorem flushAlike_simulation : Simulation FlushAlike where
  read {p q} h := by
    have hp := p.read_flush
    have hq := q.read_flush
    rw [FlushAlike] at h
    rw [h] at hp
    exact ⟨hp.1.symm.trans hq.1, hp.2.symm.trans hq.2⟩
  write {p q} w h := by
    rw [FlushAlike] at h ⊢
    rw [← write_flush w p, h, write_flush w q]

theorem FlushAlike.output {p q : Port} (h : p.FlushAlike q) : p.output = q.output := by
  have := congrArg Port.output h
  simpa [Port.output, flush] using this

theorem FlushAlike.unread {p q : Port} (h : p.FlushAlike q) : p.unread = q.unread := by
  have := congrArg Port.unread h
  simpa [Port.unread, flush] using this

end Port

namespace Engine

/-- An engine and itself after a flush differ in nothing else. -/
theorem flush_like (e : Engine) : e.flush.Like Port.FlushAlike e :=
  ⟨rfl, ⟨rfl, rfl, e.machine.port.flush_flush⟩, rfl, rfl, rfl⟩

theorem Like.refl (e : Engine) : e.Like Port.FlushAlike e :=
  ⟨rfl, ⟨rfl, rfl, rfl⟩, rfl, rfl, rfl⟩

theorem Like.trans {e e' e'' : Engine} (h : e.Like Port.FlushAlike e')
    (h' : e'.Like Port.FlushAlike e'') : e.Like Port.FlushAlike e'' :=
  ⟨h.code.trans h'.code,
    ⟨h.machine.stack.trans h'.machine.stack, h.machine.generator.trans h'.machine.generator,
      Eq.trans h.machine.port h'.machine.port⟩,
    h.status.trans h'.status, h.current.trans h'.current, h.steps.trans h'.steps⟩

/-- The engine shows the same as another: the program and its flags, the status with the recorded
fault, the current chunk, the number of steps, the stack, the generator, the input that is left and
all output. -/
structure Shows (e e' : Engine) : Prop where
  code : e.code = e'.code
  status : e.status = e'.status
  current : e.current = e'.current
  steps : e.steps = e'.steps
  stack : e.stack = e'.stack
  generator : e.machine.generator = e'.machine.generator
  unread : e.port.unread = e'.port.unread
  output : e.port.output = e'.port.output

/-- Flushing on the way changes nothing that an engine shows. -/
theorem Like.shows {e e' : Engine} (h : e.Like Port.FlushAlike e') : e.Shows e' :=
  ⟨h.code, h.status, h.current, h.steps, h.machine.stack, h.machine.generator,
    h.machine.port.unread, h.machine.port.output⟩

end Engine

end ChunkMachine
