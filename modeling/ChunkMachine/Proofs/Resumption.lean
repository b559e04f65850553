import ChunkMachine.Proofs.SessionStep

/-!
# How stepping and resuming end

The loops of the debugger end with a stop: after enough chunks, at a breakpoint, or where the program
ends. Stepping always does, for it counts. Resuming without a limit does not have to, for a program may
go on for ever. The fuel of `resume` stands for the time that a resumption is given, and it runs out for
every fuel just when the program never comes to anything that would stop it (`resume_endless_iff`).

All this is for an engine that stands on a chunk and whose port is not interrupted, so that no chunk is
broken off without ending the program. For any engine, a stop tells where the engine stands, and it comes
with an error just if the program has failed (`StopOf`).
-/

namespace ChunkMachine

theorem Underflow.message_ne_empty (u : Underflow) : u.message ≠ "" := by
  unfold Underflow.message
  cases u.use <;> simp

/-- Every fault has something to say. -/
theorem Fault.message_ne_empty (fault : Fault) : fault.message ≠ "" := by
  cases fault with
  | underflow cause opcode chunk => exact cause.message_ne_empty
  | emptyStack | outOfMemory => decide
  | invalidJump target =>
    intro hempty
    exact absurd (String.append_eq_empty_iff.1 hempty).2 (by decide)

namespace Engine

/-- An engine that goes on after a step went on before it. -/
theorem running_of_next {e : Engine} (h : e.next.status = .running) : e.status = .running :=
  running_after_of_le (j := 0) (k := 1) (Nat.zero_le 1) h

/-- The engine stands on a chunk, and no read will be interrupted. -/
structure Steady (e : Engine) : Prop where
  placed : e.Placed
  uninterrupted : e.port.Uninterrupted

end Engine

namespace Debugger

open Options

/-! ### A single step -/

theorem singleStep_steady {e : Engine} (h : e.Steady) : (singleStep e).engine.Steady := by
  by_cases hrun : e.running = true
  · rw [singleStep_engine hrun]
    exact ⟨Engine.flush_placed (Engine.next_placed h.placed),
      (Engine.step_uninterrupted h.uninterrupted).2⟩
  · rw [singleStep, if_neg hrun]
    exact h

theorem endVerdict_cases (e : Engine) :
    endVerdict e = .going ∧ e.status = .running ∨
      (∃ stop, endVerdict e = .stopped stop) ∧ e.status ≠ .running := by
  unfold endVerdict
  cases hstatus : e.status with
  | running => exact .inl ⟨rfl, rfl⟩
  | halted => exact .inr ⟨⟨_, rfl⟩, by simp⟩
  | failed fault => exact .inr ⟨⟨_, rfl⟩, by simp⟩

/-- The verdict on a single step follows from what broke the step off. -/
theorem singleStep_verdict_eq (e : Engine) :
    (singleStep e).verdict =
      match e.step.2 with
      | none => endVerdict (singleStep e).engine
      | some (.fault fault) => .stopped (stopAt .error e.next.flush (some fault.message))
      | some .interrupted => .escaped .interrupted
      | some (.index missing) => .escaped (.index missing) := by
  by_cases hrun : e.running = true
  · simp only [singleStep, if_pos hrun, Engine.next]
    rcases e.step with ⟨e', _ | (fault | _ | missing)⟩ <;> rfl
  · have hstop : e.status ≠ .running := fun hr => hrun (Engine.running_iff.2 hr)
    rw [Engine.step_of_not_running hstop, singleStep, if_neg hrun]

/-- A single step says what became of the program, unless the chunk was broken off without ending it. -/
theorem singleStep_verdict_or (e : Engine) :
    (singleStep e).verdict = endVerdict (singleStep e).engine ∨
      ∃ cause, (singleStep e).verdict = .escaped cause := by
  rw [singleStep_verdict_eq]
  rcases hstep : e.step.2 with _ | (fault | _ | missing)
  · exact .inl rfl
  · have hrun : e.running = true := by
      by_contra hrun
      rw [Engine.step_of_not_running fun hr => hrun (Engine.running_iff.2 hr)] at hstep
      cases hstep
    have hfailed : e.next.flush.status = .failed fault := Engine.next_of_fault hstep
    refine .inl ?_
    rw [singleStep_engine hrun]
    simp only [endVerdict, hfailed]
  · exact .inr ⟨_, rfl⟩
  · exact .inr ⟨_, rfl⟩

/-- A single step says that the program goes on just when it does, and otherwise says where it
stopped. -/
theorem singleStep_verdict {e : Engine} (h : e.Steady) :
    (singleStep e).verdict = .going ∧ e.next.status = .running ∨
      (∃ stop, (singleStep e).verdict = .stopped stop) ∧ e.next.status ≠ .running := by
  by_cases hrun : e.running = true
  · rw [singleStep, if_pos hrun]
    rcases hs : e.step with ⟨e', abort⟩
    have hnext : e.next = e' := congrArg Prod.fst hs
    have habort : e.step.2 = abort := congrArg Prod.snd hs
    cases abort with
    | none =>
      rw [hnext]
      exact endVerdict_cases e'.flush
    | some cause =>
      cases cause with
      | fault fault =>
        have hfailed := Engine.next_of_fault habort
        exact .inr ⟨⟨_, rfl⟩, by rw [hfailed]; simp⟩
      | interrupted => exact absurd habort (Engine.step_uninterrupted h.uninterrupted).1
      | index missing => exact absurd habort (h.placed.step_ne_index missing)
  · have hstop : e.status ≠ .running := fun hr => hrun (Engine.running_iff.2 hr)
    rw [singleStep, if_neg hrun, Engine.next_of_not_running hstop]
    exact endVerdict_cases e

/-- The engine that a single step leaves goes the way of the engine itself, one step on. -/
theorem after_singleStep {e : Engine} (hnext : e.next.status = .running) (k : Nat) :
    ((singleStep e).engine.after k).status = (e.after (k + 1)).status ∧
      ((singleStep e).engine.after k).current = (e.after (k + 1)).current := by
  have hrun : e.running = true := Engine.running_iff.2 (Engine.running_of_next hnext)
  have hlike := Engine.after_like Port.flushAlike_simulation e.next.flush_like k
  rw [singleStep_engine hrun]
  exact ⟨hlike.status, hlike.current⟩

/-! ### Stops -/

/-- The stops that the debugger makes of an engine: without an error, for a reason of its own, and with the
fault that the engine has recorded. -/
inductive StopOf (e : Engine) : Stop → Prop where
  | calm {reason : StopReason} (hreason : reason.name ≠ "error") : StopOf e (stopAt reason e none)
  | failed {fault : Fault} (hfault : e.status = .failed fault) :
    StopOf e (stopAt .error e (some fault.message))

/-- Every stop of the move is one of the engine as the move leaves it. -/
def Move.StopsThere (m : Move) : Prop := ∀ stop, m.verdict = .stopped stop → StopOf m.engine stop

theorem stopsThere_calm (e : Engine) {reason : StopReason} (hreason : reason.name ≠ "error") :
    Move.StopsThere { engine := e, verdict := .stopped (stopAt reason e none) } := by
  intro stop hstop
  cases hstop
  exact .calm hreason

theorem singleStep_stopsThere (e : Engine) : (singleStep e).StopsThere := by
  intro stop hstop
  rcases singleStep_verdict_or e with hend | ⟨cause, hescaped⟩
  · rw [hstop, endVerdict] at hend
    cases hstatus : (singleStep e).engine.status with
    | running =>
      rw [hstatus] at hend
      cases hend
    | halted =>
      rw [hstatus] at hend
      cases hend
      exact .calm (by decide)
    | failed fault =>
      rw [hstatus] at hend
      cases hend
      exact .failed hstatus
  · rw [hstop] at hescaped
    cases hescaped

theorem stepMany_stopsThere (count : Nat) : ∀ e : Engine, (stepMany count e).StopsThere := by
  induction count with
  | zero => exact fun e => stopsThere_calm e (by decide)
  | succ count ih =>
    intro e
    have hfirst := singleStep_stopsThere e
    simp only [stepMany]
    split
    · exact ih _
    · exact hfirst

theorem resumeFrom_stopsThere (breakpoints : List Int) (limit : Option Int) (fuel : Nat) :
    ∀ (executed : Nat) (e : Engine),
      (resumeFrom breakpoints limit fuel executed e).StopsThere := by
  induction fuel with
  | zero =>
    intro executed e
    rw [resumeFrom]
    split
    · exact stopsThere_calm e (by decide)
    · split
      · exact stopsThere_calm e (by decide)
      · intro stop hstop
        cases hstop
  | succ fuel ih =>
    intro executed e
    have hfirst := singleStep_stopsThere e
    rw [resumeFrom]
    split
    · exact stopsThere_calm e (by decide)
    · split
      · exact stopsThere_calm e (by decide)
      · simp only
        split
        · exact ih _ _
        · exact hfirst

/-! ### Stepping -/

/-- **Stepping ends with a stop.** -/
theorem stepMany_stops (count : Nat) :
    ∀ {e : Engine}, e.Steady → ∃ stop, (stepMany count e).verdict = .stopped stop := by
  induction count with
  | zero => intro e _; exact ⟨_, rfl⟩
  | succ count ih =>
    intro e h
    simp only [stepMany]
    rcases singleStep_verdict h with ⟨hgoing, -⟩ | ⟨⟨stop, hstop⟩, -⟩
    · rw [hgoing]
      exact ih (singleStep_steady h)
    · simp only [hstop]
      exact ⟨stop, rfl⟩

/-! ### Resuming -/

/-- Neither the limit nor a breakpoint stops a resumption after `executed` chunks. -/
def Passes (breakpoints : List Int) (limit : Option Int) (executed : Nat) (current : Int) : Prop :=
  ¬ (limit.any fun (n : Int) => n ≤ executed) ∧ ¬ (executed ≠ 0 ∧ current ∈ breakpoints)

theorem resumeFrom_of_not_passes {breakpoints : List Int} {limit : Option Int} {executed : Nat}
    {e : Engine} (h : ¬ Passes breakpoints limit executed e.current) (fuel : Nat) :
    ∃ stop, (resumeFrom breakpoints limit fuel executed e).verdict = .stopped stop := by
  unfold resumeFrom
  split
  · exact ⟨_, rfl⟩
  · rename_i hlimit
    split
    · exact ⟨_, rfl⟩
    · rename_i hbreak
      exact absurd ⟨hlimit, hbreak⟩ h

theorem resumeFrom_zero {breakpoints : List Int} {limit : Option Int} {executed : Nat} {e : Engine}
    (h : Passes breakpoints limit executed e.current) :
    (resumeFrom breakpoints limit 0 executed e).verdict = .unfinished := by
  unfold resumeFrom
  rw [if_neg h.1, if_neg h.2]

/-- What does not stop makes a single step and then goes on from there, or stops with the program. -/
theorem resumeFrom_succ {breakpoints : List Int} {limit : Option Int} {executed : Nat} {e : Engine}
    (h : Passes breakpoints limit executed e.current) (hsteady : e.Steady) (fuel : Nat) :
    (resumeFrom breakpoints limit (fuel + 1) executed e =
        resumeFrom breakpoints limit fuel (executed + 1) (singleStep e).engine ∧
      e.next.status = .running) ∨
    (∃ stop, (resumeFrom breakpoints limit (fuel + 1) executed e).verdict = .stopped stop) ∧
      e.next.status ≠ .running := by
  rw [resumeFrom, if_neg h.1, if_neg h.2]
  rcases singleStep_verdict hsteady with ⟨hgoing, hnext⟩ | ⟨⟨stop, hstop⟩, hnext⟩
  · refine .inl ⟨?_, hnext⟩
    simp only [hgoing]
  · refine .inr ⟨⟨stop, ?_⟩, hnext⟩
    simp only [hstop]

/-- A resumption ends with a stop or its fuel runs out. -/
theorem resumeFrom_stops_or (breakpoints : List Int) (limit : Option Int) (fuel : Nat) :
    ∀ (executed : Nat) {e : Engine}, e.Steady →
      (∃ stop, (resumeFrom breakpoints limit fuel executed e).verdict = .stopped stop) ∨
        (resumeFrom breakpoints limit fuel executed e).verdict = .unfinished := by
  induction fuel with
  | zero =>
    intro executed e _
    by_cases hpass : Passes breakpoints limit executed e.current
    · exact .inr (resumeFrom_zero hpass)
    · exact .inl (resumeFrom_of_not_passes hpass 0)
  | succ fuel ih =>
    intro executed e h
    by_cases hpass : Passes breakpoints limit executed e.current
    · rcases resumeFrom_succ hpass h fuel with ⟨hstep, -⟩ | ⟨hstop, -⟩
      · rw [hstep]
        exact ih (executed + 1) (singleStep_steady h)
      · exact .inl hstop
    · exact .inl (resumeFrom_of_not_passes hpass (fuel + 1))

/-- The fuel of a resumption runs out just when nothing stops it at any chunk up to there. -/
theorem resumeFrom_unfinished_iff (breakpoints : List Int) (limit : Option Int) (fuel : Nat) :
    ∀ (executed : Nat) {e : Engine}, e.Steady →
      ((resumeFrom breakpoints limit fuel executed e).verdict = .unfinished ↔
        ∀ j ≤ fuel, Passes breakpoints limit (executed + j) (e.after j).current ∧
          (j < fuel → (e.after (j + 1)).status = .running)) := by
  induction fuel with
  | zero =>
    intro executed e _
    by_cases hpass : Passes breakpoints limit executed e.current
    · refine iff_of_true (resumeFrom_zero hpass) fun j hj => ?_
      rw [Nat.le_zero.1 hj]
      exact ⟨hpass, fun hlt => absurd hlt (Nat.lt_irrefl 0)⟩
    · obtain ⟨stop, hstop⟩ := resumeFrom_of_not_passes hpass 0
      exact iff_of_false (by rw [hstop]; simp) fun hall => hpass (hall 0 (Nat.le_refl 0)).1
  | succ fuel ih =>
    intro executed e h
    by_cases hpass : Passes breakpoints limit executed e.current
    · rcases resumeFrom_succ hpass h fuel with ⟨hstep, hnext⟩ | ⟨⟨stop, hstop⟩, hnext⟩
      · rw [hstep, ih (executed + 1) (singleStep_steady h)]
        have hshift : ∀ j, executed + 1 + j = executed + (j + 1) := fun j => by omega
        constructor
        · intro hrest j hj
          cases j with
          | zero => exact ⟨hpass, fun _ => hnext⟩
          | succ j =>
            obtain ⟨hpasses, hgoes⟩ := hrest j (Nat.le_of_succ_le_succ hj)
            rw [(after_singleStep hnext j).2, hshift] at hpasses
            refine ⟨hpasses, fun hlt => ?_⟩
            rw [← (after_singleStep hnext (j + 1)).1]
            exact hgoes (Nat.lt_of_succ_lt_succ hlt)
        · intro hall j hj
          obtain ⟨hpasses, hgoes⟩ := hall (j + 1) (Nat.succ_le_succ hj)
          rw [(after_singleStep hnext j).2, (after_singleStep hnext (j + 1)).1, hshift]
          exact ⟨hpasses, fun hlt => hgoes (Nat.succ_lt_succ hlt)⟩
      · refine iff_of_false (by rw [hstop]; simp) fun hall => hnext ?_
        exact (hall 0 (Nat.zero_le _)).2 (Nat.succ_pos fuel)
    · obtain ⟨stop, hstop⟩ := resumeFrom_of_not_passes hpass (fuel + 1)
      exact iff_of_false (by rw [hstop]; simp) fun hall => hpass (hall 0 (Nat.zero_le _)).1

/-- The program never ends, and it never comes back to a chunk with a breakpoint. -/
def Endless (breakpoints : List Int) (e : Engine) : Prop :=
  ∀ k, (e.after k).status = .running ∧ (k ≠ 0 → (e.after k).current ∉ breakpoints)

/-- **Fuel runs out, however much there is, just when there is no limit and the program goes on for
ever.** -/
theorem resume_endless_iff {breakpoints : List Int} {limit : Option Int} {e : Engine}
    (h : e.Steady) :
    (∀ fuel, (resume fuel breakpoints limit e).verdict = .unfinished) ↔
      limit = none ∧ Endless breakpoints e := by
  unfold resume
  simp only [resumeFrom_unfinished_iff breakpoints limit _ 0 h, Nat.zero_add]
  constructor
  · intro hall
    refine ⟨?_, fun k => ⟨?_, ?_⟩⟩
    · cases limit with
      | none => rfl
      | some n =>
        -- a limit is reached after as many chunks
        have hlimit := (hall n.toNat n.toNat (Nat.le_refl _)).1.1
        simp only [Option.any_some, decide_eq_true_eq] at hlimit
        omega
    · exact Engine.running_after_of_le (Nat.le_succ k) ((hall (k + 1) k (Nat.le_succ k)).2 (by omega))
    · intro hk hbreak
      exact (hall k k (Nat.le_refl k)).1.2 ⟨hk, hbreak⟩
  · rintro ⟨rfl, hendless⟩ fuel j hj
    refine ⟨⟨by simp, fun hstop => (hendless j).2 hstop.1 hstop.2⟩, fun _ => (hendless (j + 1)).1⟩

/-- **A resumption that is given enough time ends with a stop, unless the program goes on for ever.** -/
theorem resume_stops_iff {breakpoints : List Int} {limit : Option Int} {e : Engine} (h : e.Steady) :
    (∃ enough, ∀ fuel, enough ≤ fuel →
        ∃ stop, (resume fuel breakpoints limit e).verdict = .stopped stop) ↔
      ¬ (limit = none ∧ Endless breakpoints e) := by
  rw [← resume_endless_iff h]
  constructor
  · rintro ⟨enough, hstops⟩ hnever
    obtain ⟨stop, hstop⟩ := hstops enough (Nat.le_refl _)
    rw [hnever enough] at hstop
    cases hstop
  · intro hnot
    obtain ⟨enough, henough⟩ := Classical.not_forall.1 hnot
    refine ⟨enough, fun fuel hle => ?_⟩
    refine (resumeFrom_stops_or breakpoints limit fuel 0 h).resolve_right fun hunfinished => ?_
    -- what does not stop with more fuel does not stop with less
    refine henough ((resumeFrom_unfinished_iff breakpoints limit enough 0 h).2 fun j hj => ?_)
    have hall := (resumeFrom_unfinished_iff breakpoints limit fuel 0 h).1 hunfinished j (by omega)
    exact ⟨hall.1, fun hlt => hall.2 (by omega)⟩

/-- **A resumption that nothing stops makes the steps of the engine**, and says what becomes of the
program. -/
theorem resumeFrom_unlimited (fuel : Nat) :
    ∀ (executed : Nat) {e e₀ : Engine}, e.Steady → e.status = .running →
      e.Like Port.FlushAlike e₀ →
      (resumeFrom [] none fuel executed e).engine.Like Port.FlushAlike (e₀.after fuel) ∧
        (resumeFrom [] none fuel executed e).verdict =
          if (e₀.after fuel).status = .running then .unfinished
          else endVerdict (resumeFrom [] none fuel executed e).engine := by
  have hlimit : ∀ executed : Nat,
      ¬ ((none : Option Int).any fun (n : Int) => n ≤ executed) = true := by simp
  have hbreak : ∀ (executed : Nat) (current : Int), ¬ (executed ≠ 0 ∧ current ∈ ([] : List Int)) := by
    simp
  induction fuel with
  | zero =>
    intro executed e e₀ _ hrun hlike
    have hrun₀ : e₀.status = .running := hlike.status ▸ hrun
    rw [resumeFrom, if_neg (hlimit executed), if_neg (hbreak executed e.current), Engine.after_zero,
      if_pos hrun₀]
    exact ⟨hlike, rfl⟩
  | succ fuel ih =>
    intro executed e e₀ h hrun hlike
    have hfirst := singleStep_like hlike
    rw [attempt, if_pos (Engine.running_iff.2 hrun)] at hfirst
    have hstatus : e.next.status = e₀.next.status :=
      (Engine.step_like Port.flushAlike_simulation hlike).1.status
    rw [resumeFrom, if_neg (hlimit executed), if_neg (hbreak executed e.current),
      Engine.after_succ_next]
    rcases singleStep_verdict h with ⟨hgoing, hnext⟩ | ⟨⟨stop, hstop⟩, hnext⟩
    · have hrun' : (singleStep e).engine.status = .running := by
        rw [singleStep_engine (Engine.running_iff.2 hrun)]
        exact hnext
      simp only [hgoing]
      exact ih (executed + 1) (singleStep_steady h) hrun' hfirst
    · have hend : (singleStep e).verdict = endVerdict (singleStep e).engine := by
        refine (singleStep_verdict_or e).resolve_right ?_
        rintro ⟨cause, hescaped⟩
        rw [hstop] at hescaped
        cases hescaped
      have hnext₀ : e₀.next.status ≠ .running := hstatus ▸ hnext
      simp only [hstop]
      rw [Engine.after_of_not_running hnext₀, if_neg hnext₀, ← hend, hstop]
      exact ⟨hfirst, rfl⟩

/-! ### Lines that move the engine -/

/-- A `step` line that does not come to stepping changes nothing and cannot be interrupted. -/
theorem step_reply_or {r : Registry} {s : Session} {x : Entry} {words : List String}
    (hasked : asked r s x.line = some (.step, words)) :
    ((x.reply r s).session = s ∧ (x.reply r s).ended ≠ .escaped .interrupted) ∨
      ∃ e count, s.engine = some e ∧ x.reply r s = moved s (stepMany count e) ∧
        attempted x.fuel r s x.line = stepAttempts count e := by
  have hreply : x.reply r s = step s words := dispatch_of_asked hasked
  cases hparse : parse stepSpec words with
  | error refusal =>
    refine .inl ⟨by simp [hreply, step, hparse], ?_⟩
    cases refusal <;> simp [hreply, step, hparse, Reply.misused, Reply.refused]
  | ok p =>
    cases he : s.engine with
    | none => exact .inl (by simp [hreply, step, hparse, Session.needEngine, he, Reply.refused])
    | some e =>
      exact .inr ⟨e, (max 1 ((p.int? "count").getD 1)).toNat, rfl,
        by simp only [hreply, step, hparse, Session.needEngine, he],
        by simp only [attempted, hasked, he, hparse]⟩

/-- A `continue` line that does not come to resuming changes nothing and cannot be interrupted. -/
theorem goOn_reply_or {r : Registry} {s : Session} {x : Entry} {words : List String}
    (hasked : asked r s x.line = some (.resume, words)) :
    ((x.reply r s).session = s ∧ (x.reply r s).ended ≠ .escaped .interrupted) ∨
      ∃ e limit, s.engine = some e ∧ x.reply r s = moved s (resume x.fuel s.breakpoints limit e) ∧
        attempted x.fuel r s x.line = resumeAttempts s.breakpoints limit x.fuel 0 e := by
  have hreply : x.reply r s = goOn x.fuel s words := dispatch_of_asked hasked
  cases hparse : parse resumeSpec words with
  | error refusal =>
    refine .inl ⟨by simp [hreply, goOn, hparse], ?_⟩
    cases refusal <;> simp [hreply, goOn, hparse, Reply.misused, Reply.refused]
  | ok p =>
    cases he : s.engine with
    | none => exact .inl (by simp [hreply, goOn, hparse, Session.needEngine, he, Reply.refused])
    | some e =>
      by_cases hblank : p.isBlank "max" = true
      · exact .inl (by simp [hreply, goOn, hparse, Session.needEngine, he, hblank, Reply.escaped])
      · exact .inr ⟨e, p.int? "max", rfl,
          by simp only [hreply, goOn, hparse, Session.needEngine, he, if_neg hblank],
          by simp only [attempted, hasked, he, hparse, if_neg hblank]⟩

end Debugger

end ChunkMachine
