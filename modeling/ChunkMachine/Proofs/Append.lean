import ChunkMachine.Proofs.Invariant

/-!
# Programs with more chunks after their own

A program text may be followed by another one. The chunks of the first keep their numbers, so as long
as no chunk is asked for that only the longer program has, the longer program does what the shorter one
does. The one place where the two can part is the test of a jump. A jump that leaves the shorter program
fails there, and in the longer one it fails as well or goes on in the chunks that were added.

An engine for the longer program is the engine for the shorter one with more chunks, none of them
executed (`Engine.extend`). What is proved is that adding chunks commutes with steps.

## What is proved

* `parse_append`: a text followed by another one is read as the chunks of both.
* `step_extend`, `after_extend`: adding chunks commutes with a step, and with any number of them, but
  for a jump to one of the chunks that were added.
* `append_conservative`: the same of programs that are read from texts.
-/

namespace ChunkMachine

/-! ### Texts -/

namespace Program

/-- The chunks of a program and then those of another. -/
def append (p q : Program) : Program := ⟨p.chunks ++ q.chunks, by simp [p.nonempty]⟩

@[simp] theorem chunkCount_append (p q : Program) :
    (p.append q).chunkCount = p.chunkCount + q.chunkCount := by
  simp [append, chunkCount]

theorem squeeze_append (s t : String) : squeeze (s ++ t) = squeeze s ++ squeeze t := by
  simp [squeeze]

theorem readSymbols_append {ds : List Char} {ops' : List Opcode} (hds : readSymbols ds = .ok ops')
    (cs : List Char) :
    ∀ {ops : List Opcode}, readSymbols cs = .ok ops → readSymbols (cs ++ ds) = .ok (ops ++ ops') := by
  induction cs with
  | nil =>
    intro ops h
    cases h
    exact hds
  | cons c cs ih =>
    intro ops h
    simp only [readSymbols] at h
    cases hc : Opcode.ofSymbol? c with
    | none => simp [hc] at h
    | some op =>
      cases hcs : readSymbols cs with
      | error fault => simp [hc, hcs, Except.map] at h
      | ok rest =>
        simp only [hc, hcs, Except.map, Except.ok.injEq] at h
        subst h
        simp [readSymbols, hc, ih hcs, Except.map]

theorem cut_append {ops' : List Opcode} {more : List Chunk} (hmore : cut ops' = some more)
    (ops : List Opcode) :
    ∀ {chunks : List Chunk}, cut ops = some chunks → cut (ops ++ ops') = some (chunks ++ more) := by
  fun_induction cut ops with
  | case1 =>
    intro chunks h
    cases h
    exact hmore
  | case2 a b c d e rest ih =>
    intro chunks h
    obtain ⟨tail, htail, rfl⟩ := Option.map_eq_some_iff.1 h
    exact congrArg (Option.map (#v[a, b, c, d, e] :: ·)) (ih htail)
  | case3 =>
    intro chunks h
    cases h

/-- A list of operations is a program just when it can be cut into at least one chunk. -/
theorem ofOpcodes_eq_ok_iff {ops : List Opcode} {p : Program} :
    ofOpcodes ops = .ok p ↔ cut ops = some p.chunks.toList := by
  obtain ⟨chunks, hne⟩ := p
  unfold ofOpcodes
  rcases cut ops with _ | _ | ⟨c, cs⟩
  · simp
  · simpa [eq_comm] using hne
  · simp only [Except.ok.injEq, mk.injEq, Option.some.injEq]
    constructor
    · rintro rfl
      rfl
    · intro h
      rw [h]

theorem parse_eq_ok_iff {text : String} {p : Program} :
    parse text = .ok p ↔
      ∃ ops, readSymbols (squeeze text) = .ok ops ∧ cut ops = some p.chunks.toList := by
  unfold parse
  cases hread : readSymbols (squeeze text) with
  | error fault => simp [Except.bind]
  | ok ops => simp [Except.bind, ofOpcodes_eq_ok_iff]

/-- **A text followed by another one is read as the chunks of both.** -/
theorem parse_append {s t : String} {p q : Program} (hp : parse s = .ok p) (hq : parse t = .ok q) :
    parse (s ++ t) = .ok (p.append q) := by
  obtain ⟨ops, hops, hchunks⟩ := parse_eq_ok_iff.1 hp
  obtain ⟨ops', hops', hchunks'⟩ := parse_eq_ok_iff.1 hq
  refine parse_eq_ok_iff.2 ⟨ops ++ ops', ?_, ?_⟩
  · rw [squeeze_append]
    exact readSymbols_append hops' _ hops
  · rw [append, Array.toList_append]
    exact cut_append hchunks' _ hchunks

end Program

/-! ### Code -/

namespace Code

/-- The code with more chunks after its own, none of them executed. -/
def extend (code : Code) (r : Program) : Code :=
  ⟨code.program.append r, code.visited ++ Array.replicate r.chunkCount false⟩

theorem ofProgram_append (p r : Program) : ofProgram (p.append r) = (ofProgram p).extend r := by
  simp [ofProgram, extend, Array.replicate_append_replicate]

@[simp] theorem chunkCount_extend (code : Code) (r : Program) :
    (code.extend r).chunkCount = code.chunkCount + r.chunkCount :=
  Program.chunkCount_append code.program r

/-- Chunks keep their numbers. -/
theorem chunk_extend {code : Code} {i : Int} {c : Chunk} (h : code.chunk i = .ok c) (r : Program) :
    (code.extend r).chunk i = .ok c := by
  obtain ⟨h0, hc⟩ := chunk_eq_ok_iff.1 h
  have hlt : i.toNat < code.program.chunks.size := (Array.getElem?_eq_some_iff.1 hc).1
  refine chunk_eq_ok_iff.2 ⟨h0, ?_⟩
  simp only [extend, Program.append]
  rw [Array.getElem?_append_left hlt, hc]

/-- Flags keep their numbers. -/
theorem mark_extend {code : Code} {i : Nat} (h : i < code.visited.size) (r : Program) :
    (code.extend r).mark i = (code.mark i).extend r := by
  simp only [mark, extend]
  rw [Array.setIfInBounds_append_left h]

end Code

/-! ### Engines -/

namespace Engine

/-- The engine for the program with more chunks after its own, none of them executed. -/
def extend (e : Engine) (r : Program) : Engine := { e with code := e.code.extend r }

theorem start_append (p r : Program) (port : Port) (seed : Int) (tracing : Bool) :
    start (p.append r) port seed tracing = (start p port seed tracing).extend r := by
  simp only [start, extend, Code.ofProgram_append]

theorem flag_extend {e : Engine} (h : e.current.toNat < e.code.visited.size) (r : Program) :
    (e.extend r).flag = e.flag := by
  simp only [flag, extend, Code.extend, Array.getD_eq_getD_getElem?]
  rw [Array.getElem?_append_left h]

theorem record_extend (e : Engine) (r : Program) (event : TraceEvent) :
    (e.extend r).record event = (e.record event).extend r := by
  unfold record
  by_cases htracing : e.tracing = true
  · simp [extend, htracing]
  · simp [extend, htracing]

/-- Adding chunks commutes with a jump that does not lead to one of them. -/
theorem jump_extend {e : Engine} {index : Nat} (hindex : index < e.code.visited.size) (r : Program)
    (hfar : ∀ target, (e.jump index).2 = some (.fault (.invalidJump target)) →
      e.code.chunkCount + r.chunkCount ≤ target.toNat) :
    (e.extend r).jump index = ((e.jump index).1.extend r, (e.jump index).2) := by
  cases hstack : e.machine.stack with
  | nil => simp only [jump, extend, hstack, Code.mark_extend hindex, fail]
  | cons target rest =>
    by_cases hlt : target.toNat < e.code.chunkCount
    · have hlt' : target.toNat < e.code.chunkCount + r.chunkCount := Nat.lt_add_right _ hlt
      simp only [jump, extend, hstack, Code.mark_extend hindex, Code.chunkCount_extend,
        Code.chunkCount_mark, hlt, hlt', if_true]
    · have hle : e.code.chunkCount + r.chunkCount ≤ target.toNat :=
        hfar target (by simp [jump, hstack, hlt, fail])
      simp only [jump, extend, hstack, Code.mark_extend hindex, Code.chunkCount_extend,
        Code.chunkCount_mark, hlt, Nat.not_lt.2 hle, if_false, fail]

/-- Adding chunks commutes with what is made of an execution. Only the jump after it looks at how many
chunks there are. -/
theorem conclude_extend {e : Engine} {index : Nat} (hindex : index < e.code.visited.size)
    (r : Program) (c : Chunk) (x : Execution)
    (hfar : ∀ target, (e.conclude index c x).2 = some (.fault (.invalidJump target)) →
      e.code.chunkCount + r.chunkCount ≤ target.toNat) :
    (e.extend r).conclude index c x =
      ((e.conclude index c x).1.extend r, (e.conclude index c x).2) := by
  have hjump := jump_extend (e := { e with machine := x.machine, steps := e.steps + 1 }) hindex r
  have hhalt := record_extend
    { e with machine := x.machine, steps := e.steps + 1, status := .halted } r
    (.halt index (e.steps + 1))
  rcases hx : x.result with (u | (_ | _) | _) | (_ | _ | _) <;>
    simp only [conclude, hx] at hfar ⊢
  · rfl
  · rfl
  · rfl
  · rfl
  · exact hjump hfar
  · exact hjump hfar
  · exact Prod.ext hhalt rfl

/-- **Adding chunks commutes with a step**, unless the step jumps to one of them. -/
theorem step_extend {e : Engine} (h : e.Placed) (r : Program)
    (hfar : ∀ target, e.step.2 = some (.fault (.invalidJump target)) →
      e.code.chunkCount + r.chunkCount ≤ target.toNat) :
    (e.extend r).step = (e.step.1.extend r, e.step.2) := by
  by_cases hrun : e.status = .running
  · obtain ⟨c, hc⟩ := h.exists_chunk
    have hrun' : (e.extend r).status = .running := hrun
    have hc' : (e.extend r).code.chunk (e.extend r).current = .ok c := Code.chunk_extend hc r
    have hexecution : (e.extend r).execution c = e.execution c := by
      rw [execution, execution, flag_extend h.toNat_lt]
      rfl
    have hstep : (e.extend r).step =
        ((e.record (.chunk e.current.toNat e.flag c e.stack)).extend r).conclude e.current.toNat c
          (e.execution c) := by
      rw [step_eq hrun' hc', flag_extend h.toNat_lt, hexecution, record_extend]
      rfl
    obtain ⟨trace, hrecord⟩ := e.exists_record (.chunk e.current.toNat e.flag c e.stack)
    rw [step_eq hrun hc] at hfar
    rw [hstep, step_eq hrun hc]
    rw [hrecord] at hfar ⊢
    exact conclude_extend (e := { e with trace }) h.toNat_lt r c (e.execution c) hfar
  · have hrun' : (e.extend r).status ≠ .running := hrun
    rw [step_of_not_running hrun, step_of_not_running hrun']

/-- **Adding chunks commutes with any number of steps**, unless they end in a jump to one of them. -/
theorem after_extend {e : Engine} (h : e.Placed) (r : Program) (k : Nat)
    (hfar : ∀ target, (e.after k).status = .failed (.invalidJump target) →
      e.code.chunkCount + r.chunkCount ≤ target.toNat) :
    (e.extend r).after k = (e.after k).extend r := by
  induction k with
  | zero => rfl
  | succ k ih =>
    have hcount : (e.after k).code.chunkCount = e.code.chunkCount := by
      rw [Code.chunkCount, program_after]
      rfl
    have hbefore : (e.extend r).after k = (e.after k).extend r := by
      refine ih fun target hfailed => hfar target ?_
      exact failed_after_of_le (Nat.le_succ k) hfailed
    have hstep : ((e.after k).extend r).step = ((e.after k).step.1.extend r, (e.after k).step.2) := by
      refine step_extend (after_placed h k) r fun target hfault => ?_
      rw [hcount]
      refine hfar target ?_
      rw [after_succ]
      exact next_of_fault hfault
    rw [after_succ, after_succ, hbefore, next, hstep]
    rfl

/-- **Appending chunks is conservative.** Let two texts be read as the programs `p` and `r`. Then the
first text followed by the second is read as a program that does the following, on the same port and
with the same seed. As long as `p` has not failed in a jump to a chunk that it does not have, the longer
program is after every number of steps where `p` is, in all that an engine holds: its flags are those
of `p` and then those of `r`, which are not set, and everything else is the same. If `p` fails in a jump
so far that the longer program does not have the chunk either, this is so at all times, so the longer
program fails in the same step with the same fault and the same stack. -/
theorem append_conservative {s t : String} {p r : Program} (hp : Program.parse s = .ok p)
    (hr : Program.parse t = .ok r) (port : Port) (seed : Int) (tracing : Bool) (k : Nat) :
    ∃ q, Program.parse (s ++ t) = .ok q ∧ q.chunks = p.chunks ++ r.chunks ∧
      ((∀ target, ((start p port seed tracing).after k).status ≠ .failed (.invalidJump target)) →
        (start q port seed tracing).after k = ((start p port seed tracing).after k).extend r) ∧
      ∀ target, ((start p port seed tracing).after k).status = .failed (.invalidJump target) →
        p.chunkCount + r.chunkCount ≤ target.toNat →
        ∀ j, (start q port seed tracing).after j = ((start p port seed tracing).after j).extend r := by
  have hplaced := start_placed p port seed tracing
  refine ⟨p.append r, Program.parse_append hp hr, rfl, ?_, ?_⟩
  · intro hstay
    rw [start_append]
    exact after_extend hplaced r k fun target hfailed => absurd hfailed (hstay target)
  · intro target hfailed hfar j
    rw [start_append]
    refine after_extend hplaced r j fun target' hfailed' => ?_
    -- a program fails once: whichever of the two numbers of steps is smaller, the fault is the same
    have hsame : target' = target := by
      rcases Nat.le_total j k with hle | hle
      · have := failed_after_of_le hle hfailed'
        rw [hfailed] at this
        cases this
        rfl
      · have := failed_after_of_le hle hfailed
        rw [hfailed'] at this
        cases this
        rfl
    rw [hsame]
    exact hfar

/-- A chunk that goes to the next one, which puts out a byte and halts. -/
def haltingSecond : Program :=
  ⟨#[#v[.inc, .nop, .nop, .nop, .nop], #v[.write, .nop, .nop, .nop, .halt]], by simp⟩

/-- A chunk that goes to chunk 5. -/
def straying : Program := ⟨#[#v[.inc, .inc, .inc, .inc, .inc]], by simp⟩

/-- Of the two programs, one after the other: the first halts as it does alone, and the flag of the chunk
that was added is not set; and the second, if it comes first, strays as it does alone, for three chunks
are still too few. -/
theorem append_conservative_both_orders :
    Program.parse "5FFFF 1FFFB" = .ok haltingSecond ∧ Program.parse "55555" = .ok straying ∧
    (∃ q, Program.parse ("5FFFF 1FFFB" ++ "55555") = .ok q ∧
      ((start q (.ofBuffer []) 0 false).after 2).status = .halted ∧
      ((start q (.ofBuffer []) 0 false).after 2).code.visited = #[true, false, false] ∧
      ((start q (.ofBuffer []) 0 false).after 2).port.output = [1]) ∧
    ∃ q, Program.parse ("55555" ++ "5FFFF 1FFFB") = .ok q ∧
      ((start q (.ofBuffer []) 0 false).after 1).status = .failed (.invalidJump 5) ∧
      ((start q (.ofBuffer []) 0 false).after 1).stack = [5] := by
  have hhalting : Program.parse "5FFFF 1FFFB" = .ok haltingSecond := by cbv
  have hstraying : Program.parse "55555" = .ok straying := by cbv
  refine ⟨hhalting, hstraying, ?_, ?_⟩
  · obtain ⟨q, hq, -, hstay, -⟩ :=
      append_conservative hhalting hstraying (.ofBuffer []) 0 false 2
    have hhalted : ((start haltingSecond (.ofBuffer []) 0 false).after 2).status = .halted := rfl
    have heq := hstay (by simp [hhalted])
    exact ⟨q, hq, by rw [heq]; rfl, by rw [heq]; rfl, by rw [heq]; rfl⟩
  · obtain ⟨q, hq, -, -, hfail⟩ :=
      append_conservative hstraying hhalting (.ofBuffer []) 0 false 1
    have heq := hfail 5 (by decide +kernel) (by decide) 1
    exact ⟨q, hq, by rw [heq]; rfl, by rw [heq]; rfl⟩

end Engine

end ChunkMachine
