import ChunkMachine.Proofs.Invariant

/-!
# Runs in a row

A run is cut short by its limit, by the end of the program or by what breaks a step off, and the port is
flushed whichever it is. Where the limit cut it short, another run takes up just where it stopped. The flush
in between is not seen: a flush before a step makes no difference after a flush at the end
(`step_flush`, `run_flush`). So two runs in a row are one run with the sum of their limits.

A run without a limit is the loop without a test of the limit (`Ends`). It comes to an end just if some
limit is large enough, and there is a first one that is: a run with a smaller limit stops on the way, after
as many steps as the limit allows.

## What is proved

* `run_add`: two runs in a row, the first of which may have been broken off.
* `ends_iff`: a run without a limit ends just if it ends within some fuel, and with the same result.
* `Ends.exists_limit`: the limits that cut a run short, and those that do not.
* `runs_compose`: all of this for every engine that calls of `step` and `run` can lead to.
-/

namespace ChunkMachine

namespace Engine

/-! ### A flush before a step -/

@[simp] theorem flush_flush (e : Engine) : e.flush.flush = e.flush := by
  simp only [flush, mapPort, Port.flush_flush]

theorem record_flush (e : Engine) (event : TraceEvent) :
    e.flush.record event = (e.record event).flush := by
  have htracing : e.flush.tracing = e.tracing := rfl
  unfold record
  rw [htracing]
  split <;> rfl

theorem jump_flush (e : Engine) (index : Nat) :
    e.flush.jump index = ((e.jump index).1.flush, (e.jump index).2) := by
  have hstack : e.flush.machine.stack = e.machine.stack := rfl
  have hcode : e.flush.code = e.code := rfl
  unfold jump
  simp only [hstack, hcode]
  cases e.machine.stack with
  | nil => rfl
  | cons target rest =>
    simp only
    split <;> rfl

/-- Two executions that differ only in what they flushed lead to engines that differ only in that. -/
theorem conclude_flush (e : Engine) (index : Nat) (c : Chunk) {x y : Execution}
    (hmachine : x.machine.Like Port.FlushAlike y.machine) (hslot : x.slot = y.slot)
    (hresult : x.result = y.result) :
    (e.conclude index c x).1.flush = (e.conclude index c y).1.flush ∧
      (e.conclude index c x).2 = (e.conclude index c y).2 := by
  have hflushed : ∀ e : Engine,
      { e with machine := x.machine }.flush = { e with machine := y.machine }.flush := by
    intro e
    obtain ⟨hstack, hgenerator, hport⟩ := hmachine
    rw [Port.FlushAlike] at hport
    simp only [flush, mapPort, hstack, hgenerator, hport]
  have hjump : ({ e with machine := x.machine, steps := e.steps + 1 }.jump index).1.flush =
        ({ e with machine := y.machine, steps := e.steps + 1 }.jump index).1.flush ∧
      ({ e with machine := x.machine, steps := e.steps + 1 }.jump index).2 =
        ({ e with machine := y.machine, steps := e.steps + 1 }.jump index).2 := by
    have hx := jump_flush { e with machine := x.machine, steps := e.steps + 1 } index
    have hy := jump_flush { e with machine := y.machine, steps := e.steps + 1 } index
    have hxy := hx.symm.trans ((congrArg (jump · index) (hflushed { e with steps := e.steps + 1 })).trans hy)
    exact Prod.mk.inj hxy
  unfold conclude
  rw [← hresult, ← hslot]
  rcases x.result with (u | (_ | _) | _) | (_ | _ | _)
  · exact ⟨hflushed { e with status := .failed _ }, rfl⟩
  · exact ⟨hflushed { e with status := .failed _ }, rfl⟩
  · exact ⟨hflushed e, rfl⟩
  · exact ⟨hflushed e, rfl⟩
  · exact hjump
  · exact hjump
  · refine ⟨?_, rfl⟩
    simp only [← record_flush]
    exact congrArg (record · _) (hflushed { e with steps := e.steps + 1, status := .halted })

/-- **A flush before a step makes no difference after a flush at the end.** -/
theorem step_flush (e : Engine) :
    e.flush.step.1.flush = e.step.1.flush ∧ e.flush.step.2 = e.step.2 := by
  by_cases hrun : e.status = .running
  · have hrun' : e.flush.status = .running := hrun
    cases hc : e.code.chunk e.current with
    | error fault =>
      have hc' : e.flush.code.chunk e.flush.current = .error fault := hc
      rw [step, step, if_pos (running_iff.2 hrun), if_pos (running_iff.2 hrun'), hc, hc']
      exact ⟨e.flush_flush, rfl⟩
    | ok c =>
      have hc' : e.flush.code.chunk e.flush.current = .ok c := hc
      obtain ⟨hmachine, hslot, hresult⟩ := execute_within (R := fun _ => Port.FlushAlike) (k := 0)
        Port.flushAlike_simulation.rationed c e.flag e.flush_like.machine
      rw [step_eq hrun hc, step_eq hrun' hc', record_flush]
      -- what was flushed before is gone with the machine that the chunk replaces
      exact conclude_flush (e.record (.chunk e.current.toNat e.flag c e.stack)) e.current.toNat c
        hmachine hslot hresult
  · rw [step_of_not_running hrun, step_of_not_running (e := e.flush) hrun]
    exact ⟨e.flush_flush, rfl⟩

theorem advance_flush (limit : Nat) : ∀ {e e' : Engine}, e.flush = e'.flush →
    (advance limit e).1.flush = (advance limit e').1.flush ∧
      (advance limit e).2 = (advance limit e').2 := by
  induction limit with
  | zero => intro e e' h; exact ⟨h, rfl⟩
  | succ limit ih =>
    intro e e' h
    have hrunning : e.running = e'.running := by
      show e.flush.running = e'.flush.running
      rw [h]
    obtain ⟨hengine, habort⟩ := e.step_flush
    obtain ⟨hengine', habort'⟩ := e'.step_flush
    rw [h] at hengine habort
    have hnext : e.step.1.flush = e'.step.1.flush := hengine.symm.trans hengine'
    have hbroken : e.step.2 = e'.step.2 := habort.symm.trans habort'
    rw [advance, advance, ← hrunning]
    split
    · rcases hs : e.step with ⟨e₁, abort⟩
      rcases hs' : e'.step with ⟨e₁', abort'⟩
      rw [hs, hs'] at hnext hbroken
      simp only at hnext hbroken
      subst hbroken
      cases abort with
      | none => exact ih hnext
      | some abort => exact ⟨hnext, rfl⟩
    · exact ⟨h, rfl⟩

/-- A flush before a run makes no difference at all. -/
@[simp] theorem run_flush (e : Engine) (limit : Nat) : e.flush.run limit = e.run limit := by
  obtain ⟨hengine, habort⟩ := advance_flush limit e.flush_flush
  exact Prod.ext hengine habort

/-! ### Two runs in a row -/

theorem run_of_not_running {e : Engine} (h : e.status ≠ .running) (limit : Nat) :
    e.run limit = (e.flush, none) := by
  rw [run, advance_of_not_running h]

theorem run_succ_of_step {e e' : Engine} (h : e.status = .running) (hstep : e.step = (e', none))
    (limit : Nat) : e.run (limit + 1) = e'.run limit := by
  rw [run, run, advance, if_pos (running_iff.2 h), hstep]

theorem run_succ_of_abort {e e' : Engine} {abort : Abort} (h : e.status = .running)
    (hstep : e.step = (e', some abort)) (limit : Nat) :
    e.run (limit + 1) = (e'.flush, some abort) := by
  rw [run, advance, if_pos (running_iff.2 h), hstep]

/-- **Two runs in a row are one**, unless the first is broken off, which is the end of both. -/
theorem run_add (a b : Nat) : ∀ e : Engine,
    e.run (a + b) =
      match e.run a with
      | (e', none) => e'.run b
      | (e', some abort) => (e', some abort) := by
  induction a with
  | zero =>
    intro e
    rw [Nat.zero_add]
    exact (e.run_flush b).symm
  | succ a ih =>
    intro e
    rw [Nat.add_right_comm]
    by_cases hrun : e.status = .running
    · rcases hs : e.step with ⟨e', _ | abort⟩
      · rw [run_succ_of_step hrun hs, run_succ_of_step hrun hs, ih]
      · rw [run_succ_of_abort hrun hs, run_succ_of_abort hrun hs]
    · rw [run_of_not_running hrun, run_of_not_running hrun]
      simp only [run_flush, run_of_not_running hrun]

/-- A run is broken off by one of its steps, and nothing but a flush comes after it. -/
theorem run_brokenOff (a : Nat) : ∀ {e e' : Engine} {abort : Abort}, e.run a = (e', some abort) →
    ∃ j, (e.after j).step.2 = some abort ∧ e' = (e.after (j + 1)).flush := by
  induction a with
  | zero => intro e e' abort h; cases h
  | succ a ih =>
    intro e e' abort h
    by_cases hrun : e.status = .running
    · rcases hs : e.step with ⟨e₁, _ | abort'⟩
      · rw [run_succ_of_step hrun hs] at h
        have hnext : e.next = e₁ := congrArg Prod.fst hs
        obtain ⟨j, hj, he'⟩ := ih h
        refine ⟨j + 1, ?_, ?_⟩
        · rw [after_succ_next, hnext, hj]
        · rw [after_succ_next, hnext, he']
      · rw [run_succ_of_abort hrun hs] at h
        cases h
        have hnext : e.next = e₁ := congrArg Prod.fst hs
        exact ⟨0, congrArg Prod.snd hs, by rw [after_succ, after_zero, hnext]⟩
    · rw [run_of_not_running hrun] at h
      cases h

/-- A fault that breaks a run off is recorded, and there is nothing left to run. -/
theorem run_of_fault {e e' : Engine} {a : Nat} {fault : Fault}
    (h : e.run a = (e', some (.fault fault))) :
    e'.status = .failed fault ∧ ∀ b, e'.run b = (e', none) := by
  obtain ⟨j, hj, rfl⟩ := run_brokenOff a h
  have hfailed : (e.after (j + 1)).status = .failed fault := by
    rw [after_succ]
    exact next_of_fault hj
  refine ⟨hfailed, fun b => ?_⟩
  rw [run_flush, run_of_not_running (by rw [hfailed]; simp)]

/-- What breaks off a run of an engine that stands on a chunk is a fault, unless it is an interrupt. -/
theorem run_abort {e e' : Engine} {a : Nat} {abort : Abort} (hplaced : e.Placed)
    (h : e.run a = (e', some abort)) (hni : abort ≠ .interrupted) : ∃ fault, abort = .fault fault := by
  obtain ⟨j, hj, -⟩ := run_brokenOff a h
  cases abort with
  | fault fault => exact ⟨fault, rfl⟩
  | interrupted => exact absurd rfl hni
  | index missing => exact absurd hj ((after_placed hplaced j).step_ne_index missing)

/-! ### A run without a limit -/

/-- What a run without a limit comes to: it makes steps until the program does not go on or a step is
broken off, and then flushes the port. -/
inductive Ends : Engine → Engine × Option Abort → Prop where
  /-- The program does not go on. -/
  | stopped {e : Engine} (h : e.status ≠ .running) : Ends e (e.flush, none)
  /-- The next step is broken off. -/
  | brokenOff {e e' : Engine} {abort : Abort} (h : e.status = .running)
    (hstep : e.step = (e', some abort)) : Ends e (e'.flush, some abort)
  /-- The next step is made, and the run goes on from there. -/
  | further {e e' : Engine} {result : Engine × Option Abort} (h : e.status = .running)
    (hstep : e.step = (e', none)) (hrest : Ends e' result) : Ends e result

theorem runToEnd_eq_some_iff {e : Engine} {fuel : Nat} {result : Engine × Option Abort} :
    e.runToEnd fuel = some result ↔
      e.run fuel = result ∧ (result.2 = none → result.1.status ≠ .running) := by
  unfold runToEnd
  rcases e.run fuel with ⟨e', abort⟩
  have hunfinished : (abort.isNone && e'.running) = true ↔ abort = none ∧ e'.status = .running := by
    rw [Bool.and_eq_true, Option.isNone_iff_eq_none, running_iff]
  simp only [hunfinished]
  constructor
  · intro h
    split at h
    · cases h
    · rename_i hended
      cases h
      exact ⟨rfl, fun hnone hrun => hended ⟨hnone, hrun⟩⟩
  · rintro ⟨rfl, hended⟩
    rw [if_neg fun ⟨hnone, hrun⟩ => hended hnone hrun]

/-- A run comes to an end with the first step that is interrupted. -/
theorem runToEnd_of_interrupted {e : Engine} {k fuel : Nat} (h : e.Sound) (hrun : e.status = .running)
    (hk : k < fuel) (hni : ∀ j < k, (e.after j).step.2 ≠ some .interrupted)
    (hinterrupted : (e.after k).step.2 = some .interrupted) :
    ∃ e', e.runToEnd fuel = some (e', some .interrupted) := by
  have hrunning : (e.after k).status = .running := by
    by_contra hstop
    rw [step_of_not_running hstop] at hinterrupted
    cases hinterrupted
  have hbefore : e.run k = ((e.after k).flush, none) := by
    have habort := advance_abort_eq k h hni hrun
    rw [fault?, hrunning] at habort
    rw [run, ← advance_eq_after k h hni]
    exact Prod.ext rfl habort
  rcases hstep : (e.after k).step with ⟨e', abort⟩
  obtain rfl : abort = some .interrupted := by rw [← hinterrupted, hstep]
  obtain ⟨rest, rfl⟩ := Nat.exists_eq_add_of_lt hk
  refine ⟨e'.flush, runToEnd_eq_some_iff.2 ⟨?_, fun hnone => by cases hnone⟩⟩
  rw [Nat.add_assoc, run_add, hbefore]
  simp only
  rw [run_flush, run_succ_of_abort hrunning hstep]

/-- A run without a limit ends with a program that does not go on, or is broken off. -/
theorem Ends.not_running {e : Engine} {result : Engine × Option Abort} (h : e.Ends result) :
    result.2 = none → result.1.status ≠ .running := by
  induction h with
  | stopped hstop => exact fun _ => hstop
  | brokenOff => intro hnone; cases hnone
  | further _ _ _ ih => exact ih

theorem ends_of_run (fuel : Nat) : ∀ {e : Engine} {result : Engine × Option Abort},
    e.run fuel = result → (result.2 = none → result.1.status ≠ .running) → e.Ends result := by
  induction fuel with
  | zero =>
    rintro e _ rfl hended
    exact .stopped (hended rfl)
  | succ fuel ih =>
    rintro e _ rfl hended
    by_cases hrun : e.status = .running
    · rcases hs : e.step with ⟨e', _ | abort⟩
      · rw [run_succ_of_step hrun hs] at hended ⊢
        exact .further hrun hs (ih rfl hended)
      · rw [run_succ_of_abort hrun hs]
        exact .brokenOff hrun hs
    · rw [run_of_not_running hrun]
      exact .stopped hrun

/-- A step that is not broken off is counted. -/
theorem steps_of_step {e e' : Engine} (h : e.status = .running) (hstep : e.step = (e', none)) :
    e'.steps = e.steps + 1 := by
  cases hc : e.code.chunk e.current with
  | error missing => simp [step, running_iff.2 h, hc] at hstep
  | ok c => cases step_exits h hc hstep <;> rfl

/-- **A run without a limit that ends is a run with any limit that is large enough.** A smaller limit cuts
it short, after as many steps as the limit allows. -/
theorem Ends.exists_limit {e : Engine} {result : Engine × Option Abort} (h : e.Ends result) :
    ∃ n, (∀ m, n ≤ m → e.run m = result) ∧
      ∀ m < n, (e.run m).2 = none ∧ (e.run m).1.status = .running ∧ (e.run m).1.steps = e.steps + m := by
  induction h with
  | stopped hstop =>
    exact ⟨0, fun m _ => run_of_not_running hstop m, fun m hm => absurd hm (Nat.not_lt_zero m)⟩
  | brokenOff hrun hstep =>
    refine ⟨1, fun m hm => ?_, fun m hm => ?_⟩
    · obtain ⟨k, rfl⟩ := Nat.exists_eq_add_of_le' hm
      exact run_succ_of_abort hrun hstep k
    · obtain rfl : m = 0 := by omega
      exact ⟨rfl, hrun, rfl⟩
  | further hrun hstep _ ih =>
    obtain ⟨n, hlarge, hsmall⟩ := ih
    refine ⟨n + 1, fun m hm => ?_, fun m hm => ?_⟩
    · obtain ⟨k, rfl⟩ : ∃ k, m = k + 1 := ⟨m - 1, by omega⟩
      rw [run_succ_of_step hrun hstep]
      exact hlarge k (by omega)
    · cases m with
      | zero => exact ⟨rfl, hrun, rfl⟩
      | succ k =>
        obtain ⟨hnone, hrunning, hsteps⟩ := hsmall k (by omega)
        rw [run_succ_of_step hrun hstep]
        refine ⟨hnone, hrunning, ?_⟩
        rw [hsteps, steps_of_step hrun hstep]
        omega

/-- A run without a limit ends just if it ends within some fuel, and with the same result. -/
theorem ends_iff {e : Engine} {result : Engine × Option Abort} :
    e.Ends result ↔ ∃ fuel, e.runToEnd fuel = some result := by
  constructor
  · intro h
    obtain ⟨n, hlarge, -⟩ := h.exists_limit
    exact ⟨n, runToEnd_eq_some_iff.2 ⟨hlarge n (Nat.le_refl n), h.not_running⟩⟩
  · rintro ⟨fuel, h⟩
    obtain ⟨hrun, hended⟩ := runToEnd_eq_some_iff.1 h
    exact ends_of_run fuel hrun hended

/-! ### Reachable engines -/

/-- **Runs compose.** Start an engine for any program on any port and move it by any calls of `step` and
`run`. Then a run with limit `a`, if it is not broken off, and a run with limit `b` after it come to the
same as one run with limit `a + b`: the same engine, flushed output included, and the same end. If the first
is broken off, the run with limit `a + b` is broken off alike with the same engine; and unless it was an
interrupt, this is a fault that the engine has recorded, and a further run changes nothing. A run without a
limit ends just if some fuel is enough for it. If it ends, there is an `n` such that every limit from `n` on
leads to the same engine and the same end, while every limit below `n` leads to an engine that is still
running and has made as many more steps as the limit allows. -/
theorem runs_compose (program : Program) (port : Port) (seed : Int) (tracing : Bool) {e : Engine}
    (h : Reaches (start program port seed tracing) e) :
    (∀ a b e', e.run a = (e', none) → e'.run b = e.run (a + b)) ∧
    (∀ a b e' abort, e.run a = (e', some abort) → e.run (a + b) = (e', some abort) ∧
      (abort ≠ .interrupted →
        ∃ fault, abort = .fault fault ∧ e'.status = .failed fault ∧ e'.run b = (e', none))) ∧
    ∀ result, (e.Ends result ↔ ∃ fuel, e.runToEnd fuel = some result) ∧
      (e.Ends result → ∃ n, (∀ m, n ≤ m → e.run m = result) ∧
        ∀ m < n, (e.run m).2 = none ∧ (e.run m).1.status = .running ∧
          (e.run m).1.steps = e.steps + m) := by
  have hplaced : e.Placed := h.keeps (P := Placed) (fun _ => next_placed) (fun _ => flush_placed)
    (start_placed program port seed tracing)
  refine ⟨fun a b e' hrun => ?_, fun a b e' abort hrun => ⟨?_, fun hni => ?_⟩, fun result =>
    ⟨ends_iff, Ends.exists_limit⟩⟩
  · rw [run_add, hrun]
  · rw [run_add, hrun]
  · obtain ⟨fault, rfl⟩ := run_abort hplaced hrun hni
    obtain ⟨hfailed, hrest⟩ := run_of_fault hrun
    exact ⟨fault, rfl, hfailed, hrest b⟩

/-- Two chunks that add one to the top word: the second one leads out of the program. -/
def leadingOut : Program :=
  ⟨#[#v[.nop, .inc, .nop, .nop, .nop], #v[.nop, .inc, .nop, .nop, .nop]], by simp⟩

/-- Its run is cut short by a limit of one step and broken off in the second, whatever the limit. -/
theorem runs_compose_leading_out :
    let e := start leadingOut (.ofBuffer []) 0 false
    e.Reaches e ∧ (e.run 1).2 = none ∧ (e.run 1).1.run 1 = e.run 2 ∧
    (e.run 2).2 = some (.fault (.invalidJump 2)) ∧ (e.run 2).1.run 3 = ((e.run 2).1, none) ∧
    (∀ m, 2 ≤ m → e.run m = e.run 2) ∧ (e.run 1).1.steps = 1 := by
  intro e
  have hreaches : e.Reaches e := .refl
  have hfirst : (e.run 1).2 = none := rfl
  have hsecond : (e.run 2).2 = some (.fault (.invalidJump 2)) := rfl
  obtain ⟨hcompose, hbroken, hlimits⟩ := runs_compose leadingOut (.ofBuffer []) 0 false hreaches
  obtain ⟨hends, hlimit⟩ := hlimits (e.run 2)
  obtain ⟨n, hlarge, hsmall⟩ := hlimit (hends.2 ⟨2, rfl⟩)
  -- the first limit that is large enough is two
  have hle : n ≤ 2 := by
    by_contra hlt
    have := (hsmall 2 (by omega)).1
    rw [hsecond] at this
    cases this
  have hlt : 1 < n := by
    by_contra hle
    have := congrArg Prod.snd (hlarge 1 (by omega))
    rw [hfirst, hsecond] at this
    cases this
  obtain ⟨-, hrest⟩ := hbroken 2 3 (e.run 2).1 (.fault (.invalidJump 2)) rfl
  obtain ⟨-, -, -, hnothing⟩ := hrest (by simp)
  exact ⟨hreaches, hfirst, hcompose 1 1 (e.run 1).1 rfl, hsecond, hnothing,
    fun m hm => hlarge m (by omega), (hsmall 1 hlt).2.2⟩

end Engine

end ChunkMachine
