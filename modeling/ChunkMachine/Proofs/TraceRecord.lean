import ChunkMachine.Proofs.History
import ChunkMachine.Proofs.Interchange

/-!
# What a trace records

A traced engine writes a line for every chunk that it is about to execute, with the stack it finds, and a
last line when it halts. The trace is worth something if the engine does the same without it, and if the
lines tell the whole story: every chunk that was attempted, in order, also one that failed and is not
counted as a step.

The first is an equation: an engine that is started without a trace is what is left of the traced engine
when its trace is erased (`untraced`), and this stays so under any calls. For the second the lines are
compared with the steps of the engine (`chunkLine`). The marker of a line is taken from a visited flag; that
it tells whether an earlier line names the same chunk is the meaning of these flags
(`ChunkMachine.Proofs.History`).

## What is proved

* `untraced_step`, `untraced_performAll`: erasing the trace commutes with a step and with any calls.
* `trace_next_of_tracing`: the lines that one step adds.
* `Recounts.next`: a step after whole lines for all that was attempted leaves whole lines again.
* `trace_faithful`: both for every engine that calls of `step` and `run` lead to.
-/

namespace ChunkMachine

namespace TraceEvent

theorem line_chunk (index : Nat) (visited : Bool) (slots : Chunk) (stack : Stack) :
    (TraceEvent.chunk index visited slots stack).line =
      "[TRACE] chunk " ++ Text.zeroFilled 4 index ++ " (" ++ (if visited then "visited" else "new") ++
        ") " ++ slots.text ++ " stack=" ++ stack.bracketed := by
  -- `unfold` would make the equations of `line` first, and these compare its texts letter by letter
  delta line
  simp only [toString]

theorem line_halt (index steps : Nat) :
    (TraceEvent.halt index steps).line =
      "[TRACE] halt in chunk " ++ Text.zeroFilled 4 index ++ " after " ++ toString steps ++ " step(s)" := by
  delta line
  simp only [toString]

end TraceEvent

namespace Engine

/-! ### Erasing the trace -/

/-- The engine without its trace. -/
def untraced (e : Engine) : Engine := { e with tracing := false, trace := #[] }

@[simp] theorem untraced_record (e : Engine) (event : TraceEvent) :
    (e.record event).untraced = e.untraced := by
  obtain ⟨trace, hrecord⟩ := e.exists_record event
  rw [hrecord]
  rfl

@[simp] theorem record_untraced (e : Engine) (event : TraceEvent) :
    e.untraced.record event = e.untraced := rfl

theorem jump_untraced (e : Engine) (index : Nat) :
    e.untraced.jump index = ((e.jump index).1.untraced, (e.jump index).2) := by
  have hstack : e.untraced.machine.stack = e.machine.stack := rfl
  have hcode : e.untraced.code = e.code := rfl
  unfold jump
  simp only [hstack, hcode]
  cases e.machine.stack with
  | nil => rfl
  | cons target rest =>
    simp only
    split <;> rfl

theorem conclude_untraced (e : Engine) (index : Nat) (c : Chunk) (x : Execution) :
    e.untraced.conclude index c x =
      ((e.conclude index c x).1.untraced, (e.conclude index c x).2) := by
  have hmoved := jump_untraced { e with machine := x.machine, steps := e.steps + 1 } index
  have hhalted := untraced_record
    { e with machine := x.machine, steps := e.steps + 1, status := .halted } (.halt index (e.steps + 1))
  unfold conclude
  rcases x.result with (u | (_ | _) | _) | (_ | _ | _)
  · rfl
  · rfl
  · rfl
  · rfl
  · exact hmoved
  · exact hmoved
  · simp only [hhalted]
    rfl

/-- **Erasing the trace commutes with a step**, and what breaks one off breaks off the other. -/
theorem untraced_step (e : Engine) : e.untraced.step = (e.step.1.untraced, e.step.2) := by
  by_cases hrun : e.status = .running
  · cases hc : e.code.chunk e.current with
    | error fault =>
      have hc' : e.untraced.code.chunk e.untraced.current = .error fault := hc
      have hrun' : e.untraced.status = .running := hrun
      rw [step, step, if_pos (running_iff.2 hrun), if_pos (running_iff.2 hrun'), hc, hc']
    | ok c =>
      have hc' : e.untraced.code.chunk e.untraced.current = .ok c := hc
      have hconclude := conclude_untraced (e.record (.chunk e.current.toNat e.flag c e.stack))
        e.current.toNat c (e.execution c)
      rw [untraced_record] at hconclude
      rw [step_eq hrun hc, step_eq (e := e.untraced) hrun hc', record_untraced]
      exact hconclude
  · rw [step_of_not_running hrun, step_of_not_running (e := e.untraced) hrun]

theorem untraced_advance (limit : Nat) : ∀ e : Engine,
    advance limit e.untraced = ((advance limit e).1.untraced, (advance limit e).2) := by
  induction limit with
  | zero => intro e; rfl
  | succ limit ih =>
    intro e
    have hstep := e.untraced_step
    have hrunning : e.untraced.running = e.running := rfl
    rw [advance, advance, hrunning]
    split
    · rcases hs : e.step with ⟨e', _ | abort⟩
      · rw [hs] at hstep
        rw [hstep]
        exact ih e'
      · rw [hs] at hstep
        rw [hstep]
    · rfl

theorem untraced_run (e : Engine) (limit : Nat) :
    e.untraced.run limit = ((e.run limit).1.untraced, (e.run limit).2) := by
  have hadvance := untraced_advance limit e
  unfold run
  rw [hadvance]
  rfl

theorem Call.perform_untraced (call : Call) (e : Engine) :
    call.perform e.untraced = (call.perform e).map fun x => (x.1.untraced, x.2) := by
  cases call with
  | step => exact congrArg some e.untraced_step
  | run limit => exact congrArg some (e.untraced_run limit.toNat)
  | runToEnd fuel =>
    have hrunning : (e.run fuel).1.untraced.running = (e.run fuel).1.running := rfl
    simp only [Call.perform, Engine.runToEnd, untraced_run, hrunning]
    split <;> rfl

/-- **Erasing the trace commutes with any calls.** -/
theorem untraced_performAll (calls : List Call) : ∀ e : Engine,
    performAll calls e.untraced = (performAll calls e).map fun x => (x.1.untraced, x.2) := by
  induction calls with
  | nil => intro e; rfl
  | cons call calls ih =>
    intro e
    rw [performAll, performAll, Call.perform_untraced]
    cases call.perform e with
    | none => rfl
    | some x =>
      obtain ⟨e', abort⟩ := x
      simp only [Option.map_some, ih]
      cases performAll calls e' with
      | none => rfl
      | some y => rfl

/-! ### The lines of a trace -/

/-- The last line of the trace of an engine that halted; there is none otherwise. -/
def haltLines (e : Engine) : List String :=
  if e.status = .halted then
    ["[TRACE] halt in chunk " ++ Text.zeroFilled 4 e.current ++ " after " ++ toString e.steps ++ " step(s)"]
  else []

/-- The line for the `j`-th chunk that is executed from the engine on: the number of the chunk, whether it
is new, its text, and the stack before it. It is new if none of the chunks before is the same. -/
def chunkLine (e : Engine) (j : Nat) : String :=
  let current := (e.after j).current
  let marker := if ∃ j' < j, (e.after j').current = current then "visited" else "new"
  let text := (e.code.program.chunks[current.toNat]?).elim "" Chunk.text
  "[TRACE] chunk " ++ Text.zeroFilled 4 current ++ " (" ++ marker ++ ") " ++ text ++ " stack=" ++
    (e.after j).stack.bracketed

theorem haltLines_of_running {e : Engine} (h : e.status = .running) : e.haltLines = [] := by
  rw [haltLines, if_neg (by rw [h]; simp)]

theorem trace_jump (e : Engine) (index : Nat) :
    (e.jump index).1.trace = e.trace ∧ (e.jump index).1.tracing = e.tracing ∧
      ((e.jump index).1.status = .halted → e.status = .halted) := by
  unfold jump
  simp only
  split
  · exact ⟨rfl, rfl, fun h => by cases h⟩
  · split
    · exact ⟨rfl, rfl, id⟩
    · exact ⟨rfl, rfl, fun h => by cases h⟩

/-- After the line of a chunk there is one for its halt at most. -/
theorem trace_conclude {e : Engine} (htracing : e.tracing = true) (hrun : e.status = .running)
    (h0 : 0 ≤ e.current) (c : Chunk) (x : Execution) :
    (e.conclude e.current.toNat c x).1.tracing = true ∧
    (e.conclude e.current.toNat c x).1.trace.toList.map TraceEvent.line =
      e.trace.toList.map TraceEvent.line ++ (e.conclude e.current.toNat c x).1.haltLines := by
  have hplain : ∀ {e' : Engine}, e'.trace = e.trace → e'.status ≠ .halted →
      e'.trace.toList.map TraceEvent.line = e.trace.toList.map TraceEvent.line ++ e'.haltLines := by
    intro e' htrace hstatus
    rw [htrace, haltLines, if_neg hstatus, List.append_nil]
  have hjump := trace_jump { e with machine := x.machine, steps := e.steps + 1 } e.current.toNat
  have hmoved : ({ e with machine := x.machine, steps := e.steps + 1 }.jump e.current.toNat).1.status ≠
      .halted := fun hhalted => by
    have hstatus : e.status = .halted := hjump.2.2 hhalted
    rw [hrun] at hstatus
    cases hstatus
  have hcurrent : (e.current.toNat : Int) = e.current := Int.toNat_of_nonneg h0
  unfold conclude
  rcases x.result with (u | (_ | _) | _) | (_ | _ | _)
  · exact ⟨htracing, hplain rfl (by simp [fail])⟩
  · exact ⟨htracing, hplain rfl (by simp [fail])⟩
  · exact ⟨htracing, hplain rfl (by simp [hrun])⟩
  · exact ⟨htracing, hplain rfl (by simp [hrun])⟩
  · exact ⟨hjump.2.1.trans htracing, hplain hjump.1 hmoved⟩
  · exact ⟨hjump.2.1.trans htracing, hplain hjump.1 hmoved⟩
  · simp [record, htracing, haltLines, TraceEvent.line_halt, hcurrent]

/-- **What a step writes**: a line for the chunk, with the flag that the chunk is executed with, and after
it the line of the halt if the chunk halts. -/
theorem trace_next_of_tracing {e : Engine} {c : Chunk} (htracing : e.tracing = true)
    (hrun : e.status = .running) (hc : e.code.chunk e.current = .ok c) :
    e.next.tracing = true ∧
    e.next.trace.toList.map TraceEvent.line = e.trace.toList.map TraceEvent.line ++
      (TraceEvent.chunk e.current.toNat e.flag c e.stack).line :: e.next.haltLines := by
  rw [next, step_eq hrun hc, record, if_pos htracing]
  generalize TraceEvent.chunk e.current.toNat e.flag c e.stack = event
  obtain ⟨htracing', hlines⟩ := trace_conclude (e := { e with trace := e.trace.push event }) htracing hrun
    (Code.chunk_eq_ok_iff.1 hc).1 c (e.execution c)
  refine ⟨htracing', hlines.trans ?_⟩
  simp

/-! ### The trace of a run -/

/-- The trace of the engine tells of the first `k` steps of another one, which attempted a chunk each and
led to the same. -/
structure Recounts (first : Engine) (k : Nat) (e : Engine) : Prop where
  attempted : ∀ j < k, (first.after j).status = .running
  like : e.Like Port.FlushAlike (first.after k)
  tracing : e.tracing = true
  lines : e.trace.toList.map TraceEvent.line = (List.range k).map first.chunkLine ++ e.haltLines

/-- A running engine is about to write the line that is due. -/
theorem line_eq_chunkLine {e : Engine} (h : e.Fresh) {k : Nat}
    (hni : ∀ j < k, (e.after j).step.2 ≠ some .interrupted) (hrun : (e.after k).status = .running)
    {c : Chunk} (hc : (e.after k).code.chunk (e.after k).current = .ok c) :
    (TraceEvent.chunk (e.after k).current.toNat (e.after k).flag c (e.after k).stack).line =
      e.chunkLine k := by
  obtain ⟨h0, hchunk⟩ := Code.chunk_eq_ok_iff.1 hc
  have hcurrent : ((e.after k).current.toNat : Int) = (e.after k).current := Int.toNat_of_nonneg h0
  have hflag : (e.after k).flag = true ↔ ∃ j < k, (e.after j).current = (e.after k).current := by
    rw [flag_eq_true_iff, marked_iff_executed h _ hni hrun]
    refine exists_congr fun j => and_congr_right fun hj => ?_
    rw [Executes, hcurrent]
    exact and_iff_right (running_after_of_le (Nat.le_of_lt hj) hrun)
  have hmarker : (if (e.after k).flag then "visited" else "new") =
      if ∃ j < k, (e.after j).current = (e.after k).current then "visited" else "new" :=
    if_congr hflag rfl rfl
  rw [program_after] at hchunk
  rw [TraceEvent.line_chunk, hmarker, hcurrent]
  delta chunkLine
  simp only [hchunk, Option.elim_some]

/-- **A step adds just the lines that are due.** -/
theorem Recounts.next {first e : Engine} {k : Nat} (hfirst : first.Fresh)
    (hport : first.port.Uninterrupted) (h : first.Recounts k e) : ∃ k', first.Recounts k' e.next := by
  by_cases hrun : e.status = .running
  · have hni : ∀ j < k, (first.after j).step.2 ≠ some .interrupted := fun j _ =>
      step_after_uninterrupted hport j
    have hsound := after_sound (fresh_sound hfirst) k hni
    have hrun' : (first.after k).status = .running := h.like.status ▸ hrun
    obtain ⟨c, hc'⟩ := hsound.exists_chunk
    have hc : e.code.chunk e.current = .ok c := by rw [h.like.code, h.like.current, hc']
    have hstack : e.stack = (first.after k).stack := h.like.machine.stack
    have hline : (TraceEvent.chunk e.current.toNat e.flag c e.stack).line = first.chunkLine k := by
      rw [← line_eq_chunkLine hfirst hni hrun' hc', flag, flag, h.like.code, h.like.current, hstack]
    obtain ⟨htracing, hlines⟩ := trace_next_of_tracing h.tracing hrun hc
    refine ⟨k + 1, fun j hj => running_after_of_le (Nat.le_of_lt_succ hj) hrun', ?_, htracing, ?_⟩
    · rw [after_succ]
      exact (step_like Port.flushAlike_simulation h.like).1
    · rw [hlines, h.lines, haltLines_of_running hrun, hline, List.range_succ]
      simp
  · rw [next_of_not_running hrun]
    exact ⟨k, h⟩

theorem Recounts.flush {first e : Engine} {k : Nat} (h : first.Recounts k e) : first.Recounts k e.flush :=
  ⟨h.attempted, e.flush_like.trans h.like, h.tracing, h.lines⟩

theorem Call.perform_keeps {P : Engine → Prop} (hnext : ∀ e, P e → P e.next)
    (hflush : ∀ e, P e → P e.flush) {call : Call} {e e' : Engine} {abort : Option Abort}
    (h : call.perform e = some (e', abort)) (he : P e) : P e' := by
  have hreaches : e.Reaches e' := by
    cases call with
    | step =>
      obtain rfl : e.step.1 = e' := congrArg Prod.fst (Option.some.inj h)
      exact .step .refl
    | run limit =>
      obtain rfl : (e.run limit.toNat).1 = e' := congrArg Prod.fst (Option.some.inj h)
      exact .run _ .refl
    | runToEnd fuel => exact .runToEnd .refl h
  exact hreaches.keeps hnext hflush he

/-- What steps and flushes keep, calls keep. -/
theorem performAll_keeps {P : Engine → Prop} (hnext : ∀ e, P e → P e.next)
    (hflush : ∀ e, P e → P e.flush) (calls : List Call) : ∀ {e e' : Engine} {aborts : List (Option Abort)},
      performAll calls e = some (e', aborts) → P e → P e' := by
  induction calls with
  | nil =>
    intro e e' aborts h he
    cases h
    exact he
  | cons call calls ih =>
    intro e e' aborts h he
    rw [performAll] at h
    split at h
    · cases h
    · rename_i e₁ abort hfirst
      obtain ⟨⟨e₂, aborts₂⟩, hrest, hend⟩ := Option.map_eq_some_iff.1 h
      cases hend
      exact ih hrest (Call.perform_keeps hnext hflush hfirst he)

/-- **A trace is harmless and faithful.** Start an engine for any program on a port without interrupts, with
a trace and without one, and make the same calls of `step` and `run` on both. The calls are answered alike,
each broken off for the same reason or not at all, and the engine without a trace is the other one with the
trace erased. Moreover there is a number `k` of steps, each of which attempted a chunk, that lead to what the
traced engine shows. Its trace consists of one line for each of these chunks in order, which gives its number,
whether a line before names the same chunk, its text and the stack before it, and of a last line for the halt
just if the program halted. On top of the stack of every line is the number of its chunk. -/
theorem trace_faithful (program : Program) (port : Port) (seed : Int) (hport : port.Uninterrupted)
    (calls : List Call) :
    let first := start program port seed true
    performAll calls (start program port seed false) =
      (performAll calls first).map (fun x => (x.1.untraced, x.2)) ∧
    ∀ e aborts, performAll calls first = some (e, aborts) → ∃ k,
      (∀ j < k, (first.after j).status = .running) ∧ e.Shows (first.after k) ∧
      e.trace.toList.map TraceEvent.line = (List.range k).map first.chunkLine ++ e.haltLines ∧
      ∀ j < k, ∃ w rest c, (first.after j).stack = w :: rest ∧ (first.after j).current = w.toNat ∧
        program.chunks[w.toNat]? = some c := by
  intro first
  have hfresh : first.Fresh := ⟨program, port, seed, true, rfl⟩
  refine ⟨untraced_performAll calls first, fun e aborts hcalls => ?_⟩
  have hstart : first.Recounts 0 first :=
    ⟨fun j hj => absurd hj (Nat.not_lt_zero j), Like.refl first, rfl, rfl⟩
  obtain ⟨k, hk⟩ : ∃ k, first.Recounts k e :=
    performAll_keeps (P := fun x => ∃ k, first.Recounts k x)
      (fun _ ⟨_, hx⟩ => hx.next hfresh hport) (fun _ ⟨k, hx⟩ => ⟨k, hx.flush⟩) calls hcalls ⟨0, hstart⟩
  refine ⟨k, hk.attempted, hk.like.shows, hk.lines, fun j hj => ?_⟩
  have hsound := after_sound (fresh_sound hfresh) j fun i _ =>
    step_after_uninterrupted (e := first) hport i
  obtain ⟨w, rest, hstack, hcurrent⟩ := hsound.top (hk.attempted j hj)
  obtain ⟨c, hc⟩ := hsound.exists_chunk
  obtain ⟨-, hchunk⟩ := Code.chunk_eq_ok_iff.1 hc
  rw [program_after, hcurrent, Int.toNat_natCast] at hchunk
  exact ⟨w, rest, c, hstack, hcurrent, hchunk⟩

/-- A program whose only chunk returns to itself and halts when it is visited again. -/
def haltingAgain : Program := ⟨#[#v[.nop, .skipNew, .halt, .nop, .nop]], by simp⟩

/-- Its chunk is new and then visited, and a step after the halt writes nothing. -/
theorem trace_faithful_halting_again :
    (Port.ofBuffer []).Uninterrupted ∧
    ∃ e, performAll [.step, .runToEnd 9, .step] (start haltingAgain (.ofBuffer []) 0 true) =
        some (e, [none, none, none]) ∧
      e.trace.toList.map TraceEvent.line =
        ["[TRACE] chunk 0000 (new) F8BFF stack=[0]", "[TRACE] chunk 0000 (visited) F8BFF stack=[0]",
          "[TRACE] halt in chunk 0000 after 2 step(s)"] := by
  have hport : (Port.ofBuffer []).Uninterrupted := by simp [Port.Uninterrupted, Port.ofBuffer]
  obtain ⟨e, hcalls, hsize, hhalt⟩ : ∃ e,
      performAll [.step, .runToEnd 9, .step] (start haltingAgain (.ofBuffer []) 0 true) =
        some (e, [none, none, none]) ∧ e.trace.size = 3 ∧
      e.haltLines = ["[TRACE] halt in chunk 0000 after 2 step(s)"] := ⟨_, rfl, rfl, by decide +kernel⟩
  refine ⟨hport, e, hcalls, ?_⟩
  obtain ⟨k, -, -, hlines, -⟩ := (trace_faithful haltingAgain _ 0 hport _).2 e _ hcalls
  have hk : k = 2 := by
    have hlength := congrArg List.length hlines
    simpa [hsize, hhalt] using hlength.symm
  rw [hlines, hk, hhalt]
  decide +kernel

end Engine

end ChunkMachine
