import ChunkMachine.Proofs.Invariant

/-!
# Buffers and streams

A port stands on a buffer or on streams, and the two read and write in their own ways: a reader hands
out bytes that it has fetched in blocks, a writer keeps bytes until it is flushed, and either may be
missing. What a program can tell of its port is much less. It sees the input that is left, which of its
reads fail, and nothing of what it writes. So two ports that have the same input left are as good as each
other (`sameInput_simulation`), and if both keep what is written, then they go on to write the same
(`continues_simulation`).

## What is proved

* `read_fst`, `unread_read`, `output_write`, …: what reading and writing do to the input that is left and
  to the output, on every kind of endpoint.
* `advance_like`, `run_like`, `performAll_like`: engines on ports that cannot be told apart run alike.
* `ports_interchangeable`: after any calls, an engine on a buffer and one on streams show the same, and one
  without streams does what one on an empty buffer does.
-/

namespace ChunkMachine

/-! ### What an endpoint shows -/

namespace Source

theorem read_fst (s : Source) : s.read.1 = s.unread.head? := by
  unfold read
  split
  · rename_i hempty
    rw [hempty]
    rfl
  · rename_i hunread
    rw [hunread]
    split <;> rfl

theorem unread_read (s : Source) : s.read.2.unread = s.unread.tail := by
  unfold read
  split
  · rename_i hempty
    rw [hempty]
    rfl
  · rename_i hunread
    rw [hunread]
    split <;> rfl

end Source

namespace Endpoint

/-- Is what is written kept? -/
def collects : Endpoint → Bool
  | .buffer _ _ => true
  | .stream _ writer => writer.isSome

theorem read_fst (e : Endpoint) : e.read.1 = e.unread.head? := by
  rcases e with ⟨_ | ⟨b, input⟩, written⟩ | ⟨_ | source, writer⟩
  · rfl
  · rfl
  · rfl
  · exact source.read_fst

@[simp] theorem unread_read (e : Endpoint) : e.read.2.unread = e.unread.tail := by
  rcases e with ⟨_ | ⟨b, input⟩, written⟩ | ⟨_ | source, writer⟩
  · rfl
  · rfl
  · rfl
  · show (Endpoint.stream (some source.read.2) writer).flush.unread = source.unread.tail
    rw [unread_flush]
    exact source.unread_read

@[simp] theorem output_read (e : Endpoint) : e.read.2.output = e.output := by
  rcases e with ⟨_ | ⟨b, input⟩, written⟩ | ⟨_ | source, writer⟩
  · rfl
  · rfl
  · rfl
  · show (Endpoint.stream (some source.read.2) writer).flush.output = _
    rw [output_flush]
    cases writer <;> rfl

@[simp] theorem collects_flush (e : Endpoint) : e.flush.collects = e.collects := by
  rcases e with ⟨input, written⟩ | ⟨reader, _ | sink⟩ <;> rfl

@[simp] theorem collects_read (e : Endpoint) : e.read.2.collects = e.collects := by
  rcases e with ⟨_ | ⟨b, input⟩, written⟩ | ⟨_ | source, _ | sink⟩ <;> rfl

@[simp] theorem unread_write (b : UInt8) (e : Endpoint) : (e.write b).unread = e.unread := by
  rcases e with ⟨input, written⟩ | ⟨reader, _ | sink⟩ <;> rfl

@[simp] theorem collects_write (b : UInt8) (e : Endpoint) : (e.write b).collects = e.collects := by
  rcases e with ⟨input, written⟩ | ⟨reader, _ | sink⟩ <;> rfl

/-- A byte that is written comes after the others, where they are kept. -/
theorem output_write (b : UInt8) (e : Endpoint) :
    (e.write b).output = e.output ++ if e.collects then [b] else [] := by
  rcases e with ⟨input, written⟩ | ⟨reader, _ | sink⟩ <;> simp [write, output, collects]

/-- What is not kept is not there. -/
theorem output_of_not_collects {e : Endpoint} (h : e.collects = false) : e.output = [] := by
  rcases e with ⟨input, written⟩ | ⟨reader, _ | sink⟩
  · cases h
  · rfl
  · cases h

end Endpoint

/-! ### Ports that a program cannot tell apart -/

namespace Port

/-- Ports that have the same input left, of which the same reads will fail. -/
structure SameInput (p q : Port) : Prop where
  unread : p.unread = q.unread
  faults : p.faults = q.faults

/-- Ports of which the first goes on with the output of the second after some bytes, and which have the
same input left. -/
structure Continues (before : List UInt8) (p q : Port) : Prop extends SameInput p q where
  collects : p.endpoint.collects = q.endpoint.collects
  output : p.output = before ++ q.output

/-- Related ports cannot be told apart by reading, writing and flushing. -/
structure FullSimulation (R : Port → Port → Prop) : Prop extends Simulation R where
  flush : ∀ {p q : Port}, R p q → R p.flush q.flush

theorem sameInput_simulation : FullSimulation SameInput where
  read {p q} h := by
    have hunread : p.endpoint.unread = q.endpoint.unread := h.unread
    have hfaults := h.faults
    have hbyte : p.endpoint.read.1 = q.endpoint.read.1 := by
      rw [p.endpoint.read_fst, q.endpoint.read_fst, hunread]
    have hrest : p.endpoint.read.2.unread = q.endpoint.read.2.unread := by
      rw [p.endpoint.unread_read, q.endpoint.unread_read, hunread]
    unfold Port.read
    rw [← hfaults]
    rcases p.faults with _ | ⟨⟨_ | n, fault⟩, faults⟩
    · exact ⟨congrArg Except.ok hbyte, hrest, rfl⟩
    · exact ⟨rfl, hunread, rfl⟩
    · exact ⟨congrArg Except.ok hbyte, hrest, rfl⟩
  write {p q} w h := by
    refine ⟨?_, h.faults⟩
    simpa [Port.unread, Port.write] using h.unread
  flush {p q} h := by
    refine ⟨?_, h.faults⟩
    simpa [Port.unread, Port.flush] using h.unread

/-- A read does nothing to the output. -/
theorem output_read (p : Port) : p.read.2.output = p.output := by
  rcases p with ⟨endpoint, _ | ⟨⟨_ | n, fault⟩, faults⟩⟩ <;> simp [Port.read, Port.output]

theorem collects_read (p : Port) : p.read.2.endpoint.collects = p.endpoint.collects := by
  rcases p with ⟨endpoint, _ | ⟨⟨_ | n, fault⟩, faults⟩⟩ <;> simp [Port.read]

theorem continues_simulation (before : List UInt8) : FullSimulation (Continues before) where
  read {p q} h := by
    obtain ⟨hbyte, hrest⟩ := sameInput_simulation.read h.toSameInput
    refine ⟨hbyte, hrest, ?_, ?_⟩
    · rw [collects_read, collects_read, h.collects]
    · rw [output_read, output_read, h.output]
  write {p q} w h := by
    refine ⟨sameInput_simulation.write w h.toSameInput, ?_, ?_⟩
    · simpa [Port.write] using h.collects
    · have houtput : p.endpoint.output = before ++ q.endpoint.output := h.output
      simp [Port.write, Port.output, Endpoint.output_write, houtput, h.collects]
  flush {p q} h := by
    refine ⟨sameInput_simulation.flush h.toSameInput, ?_, ?_⟩
    · simpa [Port.flush] using h.collects
    · simpa [Port.output, Port.flush] using h.output

/-- Ports that have the same input left, of which the second does not keep what is written. -/
structure Discards (p q : Port) : Prop extends SameInput p q where
  not_collects : q.endpoint.collects = false

theorem discards_simulation : FullSimulation Discards where
  read {p q} h := by
    obtain ⟨hbyte, hrest⟩ := sameInput_simulation.read h.toSameInput
    refine ⟨hbyte, hrest, ?_⟩
    rw [collects_read, h.not_collects]
  write {p q} w h := by
    refine ⟨sameInput_simulation.write w h.toSameInput, ?_⟩
    simpa [Port.write] using h.not_collects
  flush {p q} h := by
    refine ⟨sameInput_simulation.flush h.toSameInput, ?_⟩
    simpa [Port.flush] using h.not_collects

end Port

/-! ### Calls -/

namespace Engine

section Simulation

variable {S : Port → Port → Prop}

/-- Related engines run alike up to the flush. -/
theorem advance_like (hS : Port.Simulation S) (limit : Nat) : ∀ {e e' : Engine}, e.Like S e' →
    (advance limit e).1.Like S (advance limit e').1 ∧ (advance limit e).2 = (advance limit e').2 := by
  induction limit with
  | zero => intro e e' h; exact ⟨h, rfl⟩
  | succ limit ih =>
    intro e e' h
    obtain ⟨hlike, habort⟩ := step_like hS h
    have hrunning : e.running = e'.running := by rw [running, running, h.status]
    rw [advance, advance, ← hrunning]
    split
    · rcases he : e.step with ⟨e₁, abort⟩
      rcases he' : e'.step with ⟨e₁', abort'⟩
      rw [he, he'] at hlike habort
      simp only at hlike habort
      subst habort
      cases abort with
      | none => exact ih hlike
      | some abort => exact ⟨hlike, rfl⟩
    · exact ⟨h, rfl⟩

theorem flush_like_flush (hS : Port.FullSimulation S) {e e' : Engine} (h : e.Like S e') :
    e.flush.Like S e'.flush :=
  ⟨h.code, ⟨h.machine.stack, h.machine.generator, hS.flush h.machine.port⟩, h.status, h.current,
    h.steps⟩

/-- Related engines run alike, and the runs are broken off alike. -/
theorem run_like (hS : Port.FullSimulation S) {e e' : Engine} (h : e.Like S e') (limit : Nat) :
    (e.run limit).1.Like S (e'.run limit).1 ∧ (e.run limit).2 = (e'.run limit).2 := by
  obtain ⟨hlike, habort⟩ := advance_like hS.toSimulation limit h
  exact ⟨flush_like_flush hS hlike, habort⟩

end Simulation

/-- A call on an engine. A run has a limit, where a negative one allows no step either, or it has
none and is given some fuel. -/
inductive Call where
  | step
  | run (limit : Int)
  | runToEnd (fuel : Nat)

/-- What a call leads to: the engine and what broke the call off; `none` if the fuel does not last. -/
def Call.perform : Call → Engine → Option (Engine × Option Abort)
  | .step, e => some e.step
  | .run limit, e => some (e.run limit.toNat)
  | .runToEnd fuel, e => e.runToEnd fuel

/-- What calls in a row lead to: the engine after the last one and what broke each of them off. -/
def performAll : List Call → Engine → Option (Engine × List (Option Abort))
  | [], e => some (e, [])
  | call :: calls, e =>
    match call.perform e with
    | none => none
    | some (e, abort) => (performAll calls e).map fun (e, aborts) => (e, abort :: aborts)

section Simulation

variable {S : Port → Port → Prop}

/-- Either neither of two results is there, or both are, with related engines and broken off alike. -/
def ResultsLike {α : Type} (S : Port → Port → Prop) (a b : Option (Engine × α)) : Prop :=
  Option.Rel (fun x y => x.1.Like S y.1 ∧ x.2 = y.2) a b

theorem Like.weaken {T : Port → Port → Prop} {e e' : Engine} (h : e.Like S e')
    (hST : ∀ p q, S p q → T p q) : e.Like T e' :=
  ⟨h.code, ⟨h.machine.stack, h.machine.generator, hST _ _ h.machine.port⟩, h.status, h.current, h.steps⟩

theorem ResultsLike.weaken {α : Type} {T : Port → Port → Prop} {a b : Option (Engine × α)}
    (h : ResultsLike S a b) (hST : ∀ p q, S p q → T p q) : ResultsLike T a b := by
  cases h with
  | none => exact .none
  | some hab => exact .some ⟨hab.1.weaken hST, hab.2⟩

theorem Call.perform_like (hS : Port.FullSimulation S) (call : Call) {e e' : Engine} (h : e.Like S e') :
    ResultsLike S (call.perform e) (call.perform e') := by
  cases call with
  | step => exact .some (step_like hS.toSimulation h)
  | run limit => exact .some (run_like hS h limit.toNat)
  | runToEnd fuel =>
    obtain ⟨hlike, habort⟩ := run_like hS h fuel
    have hrunning : (e.run fuel).1.running = (e'.run fuel).1.running := by
      rw [running, running, hlike.status]
    simp only [Call.perform, Engine.runToEnd]
    rw [← habort, ← hrunning]
    split
    · exact .none
    · exact .some ⟨hlike, rfl⟩

/-- **Engines on ports that cannot be told apart answer any calls alike.** -/
theorem performAll_like (hS : Port.FullSimulation S) (calls : List Call) :
    ∀ {e e' : Engine}, e.Like S e' → ResultsLike S (performAll calls e) (performAll calls e') := by
  induction calls with
  | nil => intro e e' h; exact .some ⟨h, rfl⟩
  | cons call calls ih =>
    intro e e' h
    have hfirst := Call.perform_like hS call h
    unfold performAll
    generalize call.perform e = a at hfirst
    generalize call.perform e' = b at hfirst
    cases hfirst with
    | none => exact .none
    | @some a b hab =>
      obtain ⟨hlike, habort⟩ := hab
      have hrest := ih hlike
      simp only
      generalize performAll calls a.1 = c at hrest
      generalize performAll calls b.1 = d at hrest
      cases hrest with
      | none => exact .none
      | some hcd => exact .some ⟨hcd.1, congrArg₂ List.cons habort hcd.2⟩

end Simulation

/-! ### Fresh engines -/

/-- A fresh engine differs from another one in nothing but its port. -/
theorem start_like {S : Port → Port → Prop} (program : Program) (seed : Int) (tracing : Bool)
    {p q : Port} (h : S p q) : (start program p seed tracing).Like S (start program q seed tracing) :=
  ⟨rfl, ⟨rfl, rfl, h⟩, rfl, rfl, rfl⟩

/-- **A buffer and streams are interchangeable.** Take any program and seed, any input, and any calls of
`step` and `run`. An engine on a buffer with the input and one on a reader that gives it and a writer
answer the calls alike: a run without a limit ends in both or in neither, and each call is broken off in
both for the same reason or in neither. Afterwards the engines agree in the program and its flags, the
status with the recorded fault, the current chunk, the number of steps, the stack and the generator, they
have the same input left, and the bytes written are the same. So do an engine on an empty buffer and one
with neither reader nor writer, but that the latter has no output. -/
theorem ports_interchangeable (program : Program) (seed : Int) (tracing : Bool) (input : List UInt8)
    (calls : List Call) :
    ResultsLike (fun p q => p.unread = q.unread ∧ p.output = q.output)
      (performAll calls (start program (.ofBuffer input) seed tracing))
      (performAll calls (start program (.ofStreams (some input) true) seed tracing)) ∧
    ResultsLike (fun p q => p.unread = q.unread ∧ q.output = [])
      (performAll calls (start program (.ofBuffer []) seed tracing))
      (performAll calls (start program (.ofStreams none false) seed tracing)) := by
  constructor
  · have hports : (Port.ofBuffer input).Continues [] (.ofStreams (some input) true) :=
      ⟨⟨rfl, rfl⟩, rfl, rfl⟩
    refine (performAll_like (Port.continues_simulation []) calls
      (start_like program seed tracing hports)).weaken fun p q h => ?_
    exact ⟨h.unread, h.output⟩
  · have hports : (Port.ofBuffer []).Discards (.ofStreams none false) := ⟨⟨rfl, rfl⟩, rfl⟩
    refine (performAll_like Port.discards_simulation calls
      (start_like program seed tracing hports)).weaken fun p q h => ?_
    exact ⟨h.unread, Endpoint.output_of_not_collects h.not_collects⟩

end Engine

end ChunkMachine
