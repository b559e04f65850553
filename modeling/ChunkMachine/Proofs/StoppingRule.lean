import ChunkMachine.Proofs.Restart
import ChunkMachine.Proofs.Resumption
import Mathlib.Order.Bounds.Basic

/-!
# Where a resumption stops

A resumption asks before every chunk whether the limit is reached or a breakpoint is met, and after every
chunk whether the program has ended. This module says what comes of it in terms of the steps of the engine
alone: a resumption makes the least number of steps, at least one, after which there is a reason to stop
(`StopsAfter`), and if several reasons come together it reports the first of them: an error, the end of the
program, the limit, a breakpoint (`verdictAfter`). With less time than that it comes to no end.

The chunk that the resumption starts on may have a breakpoint; that no step has been made is no reason to
stop. A limit that is not positive and a program that has ended are met before any chunk.

## What is proved

* `Quiet.exists_resumeFrom`: while there is no reason to stop, the loop makes the steps of the engine.
* `endsAfter_of_isLeast`: it ends after the least number of steps that gives a reason.
* `resume_stops_first`: the whole rule, for every engine that is reached.

## Scope

A chunk that is interrupted breaks off without ending the program, and the resumption escapes with it; the
rule covers this as one more reason. What `Engine.Shows` compares leaves the trace out.
-/

namespace ChunkMachine

/-- What breaks off the `k`-th step from the engine on, counted from one. -/
def Engine.breaksOff (e : Engine) (k : Nat) : Option Abort := (e.after (k - 1)).step.2

theorem Engine.breaksOff_succ (e : Engine) (k : Nat) : e.breaksOff (k + 1) = (e.after k).step.2 := rfl

namespace Debugger

open Engine (step_like after_succ)

section Rule

variable (breakpoints : List Int) (limit : Option Int) (e : Engine)

/-- After `k` steps there is a reason to stop. -/
def StopsAfter (k : Nat) : Prop :=
  1 ≤ k ∧
    ((e.breaksOff k).isSome ∨ (e.after k).status = .halted ∨ limit = some (k : Int) ∨
      (e.after k).current ∈ breakpoints)

instance (k : Nat) : Decidable (StopsAfter breakpoints limit e k) :=
  inferInstanceAs (Decidable (_ ∧ _))

/-- The first reason to stop after `k` steps of which the last did not break off. -/
def reasonAfter (k : Nat) : StopReason :=
  if (e.after k).status = .halted then .halted
  else if limit = some (k : Int) then .limit
  else .breakpoint

/-- What a resumption that stops after `k` steps reports. -/
def verdictAfter (k : Nat) : Verdict :=
  match e.breaksOff k with
  | some (.fault fault) => .stopped (stopAt .error (e.after k) (some fault.message))
  | some .interrupted => .escaped .interrupted
  | some (.index missing) => .escaped (.index missing)
  | none => .stopped (stopAt (reasonAfter limit e k) (e.after k) none)

/-- A resumption makes exactly `k` steps and reports the first reason to stop after them, if it is given
the time for them. -/
structure EndsAfter (k : Nat) : Prop where
  unfinished : ∀ fuel < k, (resume fuel breakpoints limit e).verdict = .unfinished
  engine : ∀ fuel, k ≤ fuel → (resume fuel breakpoints limit e).engine.Shows (e.after k)
  verdict : ∀ fuel, k ≤ fuel → (resume fuel breakpoints limit e).verdict = verdictAfter limit e k
  attempts : ∀ fuel, k ≤ fuel → resumeAttempts breakpoints limit fuel 0 e = k

/-- There is no reason to stop after any number of steps up to `n`. -/
def Quiet (n : Nat) : Prop := ∀ k ≤ n, ¬ StopsAfter breakpoints limit e k

end Rule

variable {breakpoints : List Int} {limit : Option Int} {e : Engine}

/-! ### Steps without a reason to stop -/

theorem Quiet.mono {m n : Nat} (h : Quiet breakpoints limit e n) (hmn : m ≤ n) :
    Quiet breakpoints limit e m :=
  fun k hk => h k (Nat.le_trans hk hmn)

theorem quiet_zero : Quiet breakpoints limit e 0 := by
  intro k hk hstop
  have := hstop.1
  omega

/-- Before the least number of steps that gives a reason there is none. -/
theorem quiet_of_isLeast {k : Nat} (h : IsLeast {k | StopsAfter breakpoints limit e k} (k + 1)) :
    Quiet breakpoints limit e k := by
  intro j hj hstop
  have := h.2 hstop
  omega

theorem quiet_or_isLeast (breakpoints : List Int) (limit : Option Int) (e : Engine) (n : Nat) :
    Quiet breakpoints limit e n ∨ ∃ k ≤ n, IsLeast {k | StopsAfter breakpoints limit e k} k := by
  induction n with
  | zero => exact .inl quiet_zero
  | succ n ih =>
    rcases ih with hquiet | ⟨k, hk, hleast⟩
    · by_cases hstop : StopsAfter breakpoints limit e (n + 1)
      · refine .inr ⟨n + 1, Nat.le_refl _, hstop, fun j hj => ?_⟩
        by_contra hlt
        exact hquiet j (by omega) hj
      · refine .inl fun k hk => ?_
        rcases Nat.le_succ_iff.1 hk with hk | rfl
        · exact hquiet k hk
        · exact hstop
    · exact .inr ⟨k, by omega, hleast⟩

/-- A step that gives no reason to stop is not broken off. -/
theorem Quiet.step_eq_none {n : Nat} (h : Quiet breakpoints limit e (n + 1)) :
    (e.after n).step.2 = none := by
  by_contra hbroken
  exact h (n + 1) (Nat.le_refl _) ⟨Nat.succ_pos n, .inl (Option.isSome_iff_ne_none.2 hbroken)⟩

/-- A program that has had no reason to stop goes on. -/
theorem Quiet.running {n : Nat} (h : Quiet breakpoints limit e n) (hrun : e.status = .running) :
    (e.after n).status = .running := by
  induction n with
  | zero => exact hrun
  | succ n ih =>
    have hnext := Engine.status_next_of_none (ih (h.mono (Nat.le_succ n))) h.step_eq_none
    rw [← after_succ] at hnext
    exact hnext.resolve_right fun hhalted =>
      h (n + 1) (Nat.le_refl _) ⟨Nat.succ_pos n, .inr (.inl hhalted)⟩

/-- What has had no reason to stop passes the tests before the next chunk. -/
theorem Quiet.passes {n : Nat} (h : Quiet breakpoints limit e n) (hlimit : ∀ m ∈ limit, 0 < m) :
    Passes breakpoints limit n (e.after n).current := by
  constructor
  · intro hreached
    cases limit with
    | none => simp at hreached
    | some m =>
      -- the limit itself is a number of steps that gives a reason
      have hpos := hlimit m rfl
      simp only [Option.any_some, decide_eq_true_eq] at hreached
      refine h m.toNat (by omega) ⟨by omega, .inr (.inr (.inl ?_))⟩
      rw [Int.toNat_of_nonneg (by omega)]
  · rintro ⟨hn, hbreak⟩
    exact h n (Nat.le_refl n) ⟨Nat.pos_of_ne_zero hn, .inr (.inr (.inr hbreak))⟩

/-- So does an engine that stands there, flushed or not. -/
theorem Quiet.passes_of_like {n : Nat} (h : Quiet breakpoints limit e n)
    (hlimit : ∀ m ∈ limit, 0 < m) {e' : Engine} (hlike : e'.Like Port.FlushAlike (e.after n)) :
    Passes breakpoints limit n e'.current := by
  rw [hlike.current]
  exact h.passes hlimit

/-- Before any chunk only a limit that is not positive is reached. -/
theorem passes_zero (hlimit : ∀ m ∈ limit, 0 < m) : Passes breakpoints limit 0 e.current :=
  quiet_zero.passes (e := e) hlimit

/-! ### The loop -/

section Loop

variable {executed : Nat}

/-- What goes on makes one chunk more. -/
theorem resumeFrom_of_going (hpass : Passes breakpoints limit executed e.current)
    (hgoing : (singleStep e).verdict = .going) (fuel : Nat) :
    resumeFrom breakpoints limit (fuel + 1) executed e =
        resumeFrom breakpoints limit fuel (executed + 1) (singleStep e).engine ∧
      resumeAttempts breakpoints limit (fuel + 1) executed e =
        attempt e + resumeAttempts breakpoints limit fuel (executed + 1) (singleStep e).engine := by
  rw [resumeFrom, resumeAttempts, if_neg hpass.1, if_neg hpass.2, if_neg hpass.1, if_neg hpass.2]
  simp only [hgoing, and_self]

/-- What does not go on ends with the chunk. -/
theorem resumeFrom_of_not_going (hpass : Passes breakpoints limit executed e.current)
    (hends : (singleStep e).verdict ≠ .going) (fuel : Nat) :
    resumeFrom breakpoints limit (fuel + 1) executed e = singleStep e ∧
      resumeAttempts breakpoints limit (fuel + 1) executed e = attempt e := by
  rw [resumeFrom, resumeAttempts, if_neg hpass.1, if_neg hpass.2, if_neg hpass.1, if_neg hpass.2]
  cases hverdict : (singleStep e).verdict with
  | going => exact absurd hverdict hends
  | stopped | escaped | unfinished => simp only [hverdict, and_self]

/-- What has reached the limit ends before the chunk. -/
theorem resumeFrom_of_limit {n : Int} (hlimit : limit = some n) (hreached : n ≤ executed)
    (fuel : Nat) :
    resumeFrom breakpoints limit fuel executed e =
        { engine := e, verdict := .stopped (stopAt .limit e none) } ∧
      resumeAttempts breakpoints limit fuel executed e = 0 := by
  have hany : limit.any (fun (n : Int) => n ≤ executed) = true := by simp [hlimit, hreached]
  unfold resumeFrom resumeAttempts
  rw [if_pos hany, if_pos hany]
  exact ⟨rfl, rfl⟩

/-- What has not reached the limit and meets a breakpoint ends before the chunk. -/
theorem resumeFrom_of_breakpoint (hlimit : ∀ n ∈ limit, (executed : Int) < n)
    (hexecuted : executed ≠ 0) (hbreak : e.current ∈ breakpoints) (fuel : Nat) :
    resumeFrom breakpoints limit fuel executed e =
        { engine := e, verdict := .stopped (stopAt .breakpoint e none) } ∧
      resumeAttempts breakpoints limit fuel executed e = 0 := by
  have hany : ¬ limit.any (fun (n : Int) => n ≤ executed) = true := by
    cases limit with
    | none => simp
    | some n => simpa using hlimit n rfl
  unfold resumeFrom resumeAttempts
  rw [if_neg hany, if_pos ⟨hexecuted, hbreak⟩, if_neg hany, if_pos ⟨hexecuted, hbreak⟩]
  exact ⟨rfl, rfl⟩

/-- What runs out of time before the chunk has made none. -/
theorem resumeAttempts_zero (hpass : Passes breakpoints limit executed e.current) :
    resumeAttempts breakpoints limit 0 executed e = 0 := by
  rw [resumeAttempts, if_neg hpass.1, if_neg hpass.2]

end Loop

theorem attempt_eq_one (h : e.status = .running) : attempt e = 1 := if_pos (Engine.running_iff.2 h)

/-- What a single step of the debugger says follows from the step of the engine. -/
theorem singleStep_verdict_alike {e e' : Engine} (h : e.Like Port.FlushAlike e')
    (hrun : e'.status = .running) :
    (singleStep e).engine.Like Port.FlushAlike e'.next ∧
      (singleStep e).verdict =
        match e'.step.2 with
        | none => endVerdict e'.next
        | some (.fault fault) => .stopped (stopAt .error e'.next (some fault.message))
        | some .interrupted => .escaped .interrupted
        | some (.index missing) => .escaped (.index missing) := by
  have hrunning : e.running = true := Engine.running_iff.2 (h.status ▸ hrun)
  obtain ⟨hnext, habort⟩ := step_like Port.flushAlike_simulation h
  have hengine : (singleStep e).engine.Like Port.FlushAlike e'.next := by
    rw [singleStep_engine hrunning]
    exact e.next.flush_like.trans hnext
  refine ⟨hengine, ?_⟩
  rw [singleStep_verdict_eq, ← habort]
  rcases e.step.2 with _ | (fault | _ | missing)
  · exact endVerdict_alike hengine
  · exact congrArg Verdict.stopped (stopAt_alike (e.next.flush_like.trans hnext) _ _)
  · rfl
  · rfl

/-- **While there is no reason to stop, the loop makes the steps of the engine**, and then stands as an
engine does that differs in what has been flushed. -/
theorem Quiet.exists_resumeFrom (hlimit : ∀ m ∈ limit, 0 < m) (hrun : e.status = .running) {n : Nat}
    (h : Quiet breakpoints limit e n) :
    ∃ e' : Engine, e'.Like Port.FlushAlike (e.after n) ∧ ∀ fuel,
      resumeFrom breakpoints limit (fuel + n) 0 e = resumeFrom breakpoints limit fuel n e' ∧
      resumeAttempts breakpoints limit (fuel + n) 0 e =
        n + resumeAttempts breakpoints limit fuel n e' := by
  -- the last of the steps is split off, so the count of the loop stays the number of steps
  induction n with
  | zero => exact ⟨e, Engine.Like.refl e, fun fuel => ⟨rfl, (Nat.zero_add _).symm⟩⟩
  | succ n ih =>
    have hbefore := h.mono (Nat.le_succ n)
    obtain ⟨e', hlike, hloop⟩ := ih hbefore
    have hrunning := hbefore.running hrun
    have hnext := h.running hrun
    rw [after_succ] at hnext
    have hpass := hbefore.passes_of_like hlimit hlike
    obtain ⟨hlike', hverdict⟩ := singleStep_verdict_alike hlike hrunning
    have hgoing : (singleStep e').verdict = .going := by
      rw [hverdict, h.step_eq_none]
      simp only [endVerdict, hnext]
    have hattempt : attempt e' = 1 := attempt_eq_one (hlike.status.trans hrunning)
    refine ⟨(singleStep e').engine, by rw [after_succ]; exact hlike', fun fuel => ?_⟩
    obtain ⟨hresume, hattempts⟩ := resumeFrom_of_going hpass hgoing fuel
    obtain ⟨hresume', hattempts'⟩ := hloop (fuel + 1)
    rw [show fuel + (n + 1) = fuel + 1 + n by omega, hresume', hattempts', hresume, hattempts, hattempt,
      Nat.add_assoc]
    exact ⟨rfl, rfl⟩

/-- With no more time than there is no reason to stop in, the fuel runs out. -/
theorem Quiet.unfinished (hlimit : ∀ m ∈ limit, 0 < m) (hrun : e.status = .running) {n : Nat}
    (h : Quiet breakpoints limit e n) :
    (resume n breakpoints limit e).verdict = .unfinished ∧
      resumeAttempts breakpoints limit n 0 e = n := by
  obtain ⟨e', hlike, hloop⟩ := h.exists_resumeFrom hlimit hrun
  obtain ⟨hresume, hattempts⟩ := hloop 0
  rw [Nat.zero_add] at hresume hattempts
  have hpass := h.passes_of_like hlimit hlike
  rw [resume, hresume, hattempts, resumeAttempts_zero hpass]
  exact ⟨resumeFrom_zero hpass, rfl⟩

/-! ### The last chunk -/

/-- The loop that stands after `n` of the steps makes one more and then reports what there is to report. -/
structure EndsWithNext (breakpoints : List Int) (limit : Option Int) (e : Engine) (n fuel : Nat)
    (e' : Engine) : Prop where
  engine : (resumeFrom breakpoints limit (fuel + 1) n e').engine.Like Port.FlushAlike (e.after (n + 1))
  verdict : (resumeFrom breakpoints limit (fuel + 1) n e').verdict = verdictAfter limit e (n + 1)
  attempts : resumeAttempts breakpoints limit (fuel + 1) n e' = 1

section LastChunk

variable {n : Nat} {e' : Engine}

/-- The loop ends with a chunk that broke off or halted the program. -/
theorem endsWithNext_of_ended (hpass : Passes breakpoints limit n e'.current)
    (hlike : e'.Like Port.FlushAlike (e.after n)) (hrun : (e.after n).status = .running)
    (hended : (e.after n).step.2 ≠ none ∨ (e.after (n + 1)).status = .halted) (fuel : Nat) :
    EndsWithNext breakpoints limit e n fuel e' := by
  obtain ⟨hlike', hverdict⟩ := singleStep_verdict_alike hlike hrun
  rw [← after_succ] at hlike' hverdict
  have hreport : (singleStep e').verdict = verdictAfter limit e (n + 1) ∧
      (singleStep e').verdict ≠ .going := by
    rw [hverdict, verdictAfter, Engine.breaksOff_succ]
    rcases hbroken : (e.after n).step.2 with _ | (fault | _ | missing)
    · have hhalted := hended.resolve_left (not_not.2 hbroken)
      simp [endVerdict, reasonAfter, hhalted]
    · exact ⟨rfl, by simp⟩
    · exact ⟨rfl, by simp⟩
    · exact ⟨rfl, by simp⟩
  obtain ⟨hresume, hattempts⟩ := resumeFrom_of_not_going hpass hreport.2 fuel
  refine ⟨by rw [hresume]; exact hlike', by rw [hresume]; exact hreport.1, ?_⟩
  rw [hattempts]
  exact attempt_eq_one (hlike.status.trans hrun)

/-- The loop ends before the next chunk if the limit is reached then or a breakpoint is met. -/
theorem endsWithNext_of_parked (hpass : Passes breakpoints limit n e'.current)
    (hlike : e'.Like Port.FlushAlike (e.after n)) (hbroken : (e.after n).step.2 = none)
    (hgoes : (e.after (n + 1)).status = .running)
    (hparked : limit = some ((n + 1 : Nat) : Int) ∨ (e.after (n + 1)).current ∈ breakpoints)
    (fuel : Nat) : EndsWithNext breakpoints limit e n fuel e' := by
  have hrun := Engine.running_of_next (after_succ e n ▸ hgoes)
  obtain ⟨hlike', hverdict⟩ := singleStep_verdict_alike hlike hrun
  rw [← after_succ] at hlike' hverdict
  have hgoing : (singleStep e').verdict = .going := by
    rw [hverdict, hbroken]
    simp only [endVerdict, hgoes]
  have hstops : resumeFrom breakpoints limit fuel (n + 1) (singleStep e').engine =
        { engine := (singleStep e').engine
          verdict := .stopped (stopAt (reasonAfter limit e (n + 1)) (e.after (n + 1)) none) } ∧
      resumeAttempts breakpoints limit fuel (n + 1) (singleStep e').engine = 0 := by
    rw [← stopAt_alike hlike', reasonAfter, if_neg (by simp [hgoes])]
    by_cases hreached : limit = some ((n + 1 : Nat) : Int)
    · rw [if_pos hreached]
      exact resumeFrom_of_limit hreached (Int.le_refl _) fuel
    · rw [if_neg hreached]
      refine resumeFrom_of_breakpoint (fun m hm => ?_) (Nat.succ_ne_zero n) ?_ fuel
      · have hahead := hpass.1
        rw [hm] at hreached hahead
        simp only [Option.any_some, decide_eq_true_eq, Option.some.injEq] at hreached hahead
        omega
      · rw [hlike'.current]
        exact hparked.resolve_left hreached
  obtain ⟨hresume, hattempts⟩ := resumeFrom_of_going hpass hgoing fuel
  refine ⟨by rw [hresume, hstops.1]; exact hlike', ?_, ?_⟩
  · rw [hresume, hstops.1, verdictAfter, Engine.breaksOff_succ, hbroken]
  · rw [hattempts, hstops.2]
    exact attempt_eq_one (hlike.status.trans hrun)

/-- **The chunk that gives a reason to stop is the last one**, and its first reason is reported. -/
theorem endsWithNext_of_stopsAfter (hlimit : ∀ m ∈ limit, 0 < m) (hrun : e.status = .running)
    (hquiet : Quiet breakpoints limit e n) (hstop : StopsAfter breakpoints limit e (n + 1))
    (hlike : e'.Like Port.FlushAlike (e.after n)) (fuel : Nat) :
    EndsWithNext breakpoints limit e n fuel e' := by
  have hrunning := hquiet.running hrun
  have hpass := hquiet.passes_of_like hlimit hlike
  by_cases hbroken : (e.after n).step.2 = none
  · have hnext := Engine.status_next_of_none hrunning hbroken
    rw [← after_succ] at hnext
    rcases hnext with hgoes | hhalted
    · obtain ⟨-, hbroken' | hhalted | hparked⟩ := hstop
      · rw [Engine.breaksOff_succ, hbroken] at hbroken'
        cases hbroken'
      · rw [hgoes] at hhalted
        cases hhalted
      · exact endsWithNext_of_parked hpass hlike hbroken hgoes hparked fuel
    · exact endsWithNext_of_ended hpass hlike hrunning (.inr hhalted) fuel
  · exact endsWithNext_of_ended hpass hlike hrunning (.inl hbroken) fuel

end LastChunk

/-! ### The rule -/

/-- **A resumption ends after the least number of steps that gives a reason to stop.** -/
theorem endsAfter_of_isLeast (hlimit : ∀ m ∈ limit, 0 < m) (hrun : e.status = .running) {k : Nat}
    (hleast : IsLeast {k | StopsAfter breakpoints limit e k} k) :
    EndsAfter breakpoints limit e k := by
  obtain ⟨n, rfl⟩ := Nat.exists_eq_succ_of_ne_zero (Nat.one_le_iff_ne_zero.1 hleast.1.1)
  have hquiet := quiet_of_isLeast hleast
  obtain ⟨e', hlike, hloop⟩ := hquiet.exists_resumeFrom hlimit hrun
  have hlast := endsWithNext_of_stopsAfter hlimit hrun hquiet hleast.1 hlike
  have htime : ∀ fuel, n + 1 ≤ fuel → ∃ more, fuel = more + 1 + n := fun fuel hle =>
    ⟨fuel - (n + 1), by omega⟩
  constructor
  · intro fuel hfuel
    exact ((hquiet.mono (Nat.le_of_lt_succ hfuel)).unfinished hlimit hrun).1
  · intro fuel hfuel
    obtain ⟨more, rfl⟩ := htime fuel hfuel
    rw [resume, (hloop (more + 1)).1]
    exact (hlast more).engine.shows
  · intro fuel hfuel
    obtain ⟨more, rfl⟩ := htime fuel hfuel
    rw [resume, (hloop (more + 1)).1]
    exact (hlast more).verdict
  · intro fuel hfuel
    obtain ⟨more, rfl⟩ := htime fuel hfuel
    rw [(hloop (more + 1)).2, (hlast more).attempts]

/-- What has ended makes no chunk. -/
theorem resume_of_not_running (hlimit : ∀ m ∈ limit, 0 < m) (hstop : e.status ≠ .running) (fuel : Nat) :
    resume (fuel + 1) breakpoints limit e = { engine := e, verdict := endVerdict e } ∧
      resumeAttempts breakpoints limit (fuel + 1) 0 e = 0 := by
  have hrunning : ¬ e.running = true := fun hrun => hstop (Engine.running_iff.1 hrun)
  have hsingle : singleStep e = { engine := e, verdict := endVerdict e } := if_neg hrunning
  have hends : (singleStep e).verdict ≠ .going := by
    rw [hsingle]
    rcases endVerdict_cases e with ⟨-, hrun⟩ | ⟨⟨stop, hend⟩, -⟩
    · exact absurd hrun hstop
    · simp [hend]
  obtain ⟨hresume, hattempts⟩ := resumeFrom_of_not_going (passes_zero hlimit) hends fuel
  rw [resume, hresume, hattempts, hsingle]
  exact ⟨rfl, if_neg hrunning⟩

/-- What has a limit that is not positive makes no chunk. -/
theorem resume_of_limit_nonpos {n : Int} (hlimit : limit = some n) (hn : n ≤ 0) (fuel : Nat) :
    resume fuel breakpoints limit e = { engine := e, verdict := .stopped (stopAt .limit e none) } ∧
      resumeAttempts breakpoints limit fuel 0 e = 0 :=
  resumeFrom_of_limit hlimit hn fuel

/-- **No chunk with a breakpoint is executed but the first.** -/
theorem not_mem_of_lt_attempts {fuel j : Nat} (hj : 1 ≤ j)
    (hlt : j < resumeAttempts breakpoints limit fuel 0 e) : (e.after j).current ∉ breakpoints := by
  by_cases hlimit : ∀ m ∈ limit, 0 < m
  · by_cases hrun : e.status = .running
    · have hcalm : ¬ StopsAfter breakpoints limit e j := by
        rcases quiet_or_isLeast breakpoints limit e fuel with hquiet | ⟨k, hk, hleast⟩
        · rw [(hquiet.unfinished hlimit hrun).2] at hlt
          exact hquiet j (Nat.le_of_lt hlt)
        · rw [(endsAfter_of_isLeast hlimit hrun hleast).attempts fuel hk] at hlt
          exact fun hstop => absurd (hleast.2 hstop) (Nat.not_le_of_lt hlt)
      exact fun hbreak => hcalm ⟨hj, .inr (.inr (.inr hbreak))⟩
    · cases fuel with
      | zero =>
        rw [resumeAttempts_zero (passes_zero hlimit)] at hlt
        exact absurd hlt (Nat.not_lt_zero j)
      | succ fuel =>
        rw [(resume_of_not_running hlimit hrun fuel).2] at hlt
        exact absurd hlt (Nat.not_lt_zero j)
  · push Not at hlimit
    obtain ⟨m, hm, hnonpos⟩ := hlimit
    rw [(resume_of_limit_nonpos hm hnonpos fuel).2] at hlt
    exact absurd hlt (Nat.not_lt_zero j)

/-- Only a fault, which is recorded, or an interrupt of the port breaks a step off. -/
theorem breaksOff_cases (h : e.Placed) {k : Nat} (hk : 1 ≤ k) {abort : Abort}
    (hbroken : e.breaksOff k = some abort) :
    (∃ fault, abort = .fault fault ∧ (e.after k).status = .failed fault) ∨
      abort = .interrupted ∧ ¬ e.port.Uninterrupted := by
  obtain ⟨n, rfl⟩ := Nat.exists_eq_add_of_le' hk
  rw [Engine.breaksOff_succ] at hbroken
  cases abort with
  | fault fault => exact .inl ⟨fault, rfl, by rw [after_succ]; exact Engine.next_of_fault hbroken⟩
  | interrupted =>
    refine .inr ⟨rfl, fun hport => ?_⟩
    exact Engine.step_after_uninterrupted hport n hbroken
  | index missing => exact absurd hbroken ((Engine.after_placed h n).step_ne_index missing)

/-- **The rule by which a resumption stops**, for every engine that calls of `step` and `run` lead to, any
breakpoints and any limit. A limit that is not positive is reached at once. Otherwise a program that has
ended is reported as it is. Otherwise, if `k` is the least number of steps, at least one, of which the last
breaks off or halts the program, or with which the limit is reached or a chunk with a breakpoint is met,
the resumption makes exactly these `k` steps and reports the first of these reasons, with the chunk and
the number of steps after them. If there is no such `k`, it comes to no end.

So no chunk with a breakpoint is executed, but for the one that the resumption started on. What breaks a
step off is a fault, which is then recorded and reported as an error, or an interrupt if the port can be
interrupted. -/
theorem resume_stops_first {program : Program} {port : Port} {seed : Int} {tracing : Bool} {e : Engine}
    (h : (Engine.start program port seed tracing).Reaches e) (breakpoints : List Int)
    (limit : Option Int) :
    (∀ n ∈ limit, n ≤ 0 → ∀ fuel, resume fuel breakpoints limit e =
      { engine := e, verdict := .stopped (stopAt .limit e none) }) ∧
    ((∀ n ∈ limit, 0 < n) →
      (e.status = .halted → ∀ fuel, resume (fuel + 1) breakpoints limit e =
        { engine := e, verdict := .stopped (stopAt .halted e none) }) ∧
      (∀ fault, e.status = .failed fault → ∀ fuel, resume (fuel + 1) breakpoints limit e =
        { engine := e, verdict := .stopped (stopAt .error e (some fault.message)) }) ∧
      (e.status = .running →
        (∀ k, IsLeast {k | StopsAfter breakpoints limit e k} k → EndsAfter breakpoints limit e k) ∧
        ((∀ k, ¬ StopsAfter breakpoints limit e k) →
          ∀ fuel, (resume fuel breakpoints limit e).verdict = .unfinished))) ∧
    (∀ fuel j, 1 ≤ j → j < resumeAttempts breakpoints limit fuel 0 e →
      (e.after j).current ∉ breakpoints) ∧
    (∀ k abort, 1 ≤ k → e.breaksOff k = some abort →
      (∃ fault, abort = .fault fault ∧ (e.after k).status = .failed fault) ∨
        abort = .interrupted ∧ ¬ port.Uninterrupted) := by
  have hplaced : e.Placed := h.keeps (P := Engine.Placed) (fun _ => Engine.next_placed)
    (fun _ => Engine.flush_placed) (Engine.start_placed program port seed tracing)
  refine ⟨?_, fun hlimit => ⟨?_, ?_, fun hrun => ⟨?_, ?_⟩⟩, ?_, ?_⟩
  · intro n hn hnonpos fuel
    exact (resume_of_limit_nonpos hn hnonpos fuel).1
  · intro hhalted fuel
    rw [(resume_of_not_running hlimit (by simp [hhalted]) fuel).1]
    simp only [endVerdict, hhalted]
  · intro fault hfailed fuel
    rw [(resume_of_not_running hlimit (by simp [hfailed]) fuel).1]
    simp only [endVerdict, hfailed]
  · intro k hleast
    exact endsAfter_of_isLeast hlimit hrun hleast
  · intro hnever fuel
    exact (Quiet.unfinished hlimit hrun fun k _ => hnever k).1
  · intro fuel j hj hlt
    exact not_mem_of_lt_attempts hj hlt
  · intro k abort hk hbroken
    rcases breaksOff_cases hplaced hk hbroken with hfault | ⟨habort, hinterrupted⟩
    · exact .inl hfault
    · refine .inr ⟨habort, fun hport => hinterrupted ?_⟩
      exact h.keeps (P := fun x => x.port.Uninterrupted)
        (fun _ hx => (Engine.step_uninterrupted hx).2) (fun _ hx => hx) hport

/-- An engine whose two chunks lead to each other. -/
def bouncing : Engine :=
  Engine.start ⟨#[#v[.inc, .ret, .nop, .nop, .nop], #v[.dec, .ret, .nop, .nop, .nop]], by simp⟩
    (Port.ofBuffer []) 0 false

/-- The chunk that it starts on does not stop it. When it is back there, the limit comes before the
breakpoint. -/
theorem resume_stops_first_bouncing :
    bouncing.Reaches bouncing ∧ bouncing.current ∈ [0] ∧ (bouncing.after 2).current ∈ [0] ∧
    IsLeast {k | StopsAfter [0] (some 2) bouncing k} 2 ∧
    ∀ fuel, 2 ≤ fuel → (resume fuel [0] (some 2) bouncing).verdict =
      .stopped { reason := .limit, chunk := 0, steps := 2, error := none } := by
  have hreached : bouncing.Reaches bouncing := .refl
  have hleast : IsLeast {k | StopsAfter [0] (some 2) bouncing k} 2 := by
    refine ⟨⟨by decide, .inr (.inr (.inl rfl))⟩, fun k hk => ?_⟩
    by_contra hlt
    have hone : k = 1 := by
      have := hk.1
      omega
    subst hone
    exact absurd hk (by decide)
  refine ⟨hreached, by decide, by decide, hleast, fun fuel hfuel => ?_⟩
  obtain ⟨-, hpositive, -⟩ := resume_stops_first hreached [0] (some 2)
  obtain ⟨-, -, hrunning⟩ := hpositive (by simp)
  rw [((hrunning rfl).1 2 hleast).verdict fuel hfuel]
  rfl

end Debugger

end ChunkMachine
