import ChunkMachine.Proofs.SessionFrame
import ChunkMachine.Proofs.Simulation

/-!
# The debugger does not disturb the program

Commands that inspect a program interleave with commands that move it, and the two loops that move it
stop for reasons of their own. Whatever they do, the engine of a session is at any time one that could
have been had without a debugger: the fresh engine of the load after as many steps as chunks were
attempted.

The loops flush the port after every chunk, which the steps of a bare engine do not. This is the only
difference, and it does not show (`ChunkMachine.Proofs.Simulation`).

## What is proved

* `stepMany_like`, `resumeFrom_like`: the loops make the steps of the engine, as many as they attempt.
* `reply_carries`: what one line does to the engine.
* `session_transparent`: what any lines do to it, from the load on.
-/

namespace ChunkMachine.Debugger

open Options

/-! ### Attempted chunks -/

/-- The number of chunks that `singleStep` attempts. -/
def attempt (e : Engine) : Nat := if e.running then 1 else 0

/-- The number of chunks that `stepMany` attempts. -/
def stepAttempts : (count : Nat) → Engine → Nat
  | 0, _ => 0
  | count + 1, e =>
    let m := singleStep e
    match m.verdict with
    | .going => attempt e + stepAttempts count m.engine
    | _ => attempt e

/-- The number of chunks that `resumeFrom` attempts. -/
def resumeAttempts (breakpoints : List Int) (limit : Option Int) :
    (fuel : Nat) → (executed : Nat) → Engine → Nat
  | fuel, executed, e =>
    if limit.any fun (n : Int) => n ≤ executed then 0
    else if executed ≠ 0 ∧ e.current ∈ breakpoints then 0
    else
      match fuel with
      | 0 => 0
      | fuel + 1 =>
        let m := singleStep e
        match m.verdict with
        | .going => attempt e + resumeAttempts breakpoints limit fuel (executed + 1) m.engine
        | _ => attempt e

/-- The number of chunks that a line attempts: none, unless it is one of `step` and `continue` with
arguments that are accepted. -/
def attempted (fuel : Nat) (r : Registry) (s : Session) (line : String) : Nat :=
  match asked r s line, s.engine with
  | some (.step, words), some e =>
    match parse stepSpec words with
    | .error _ => 0
    | .ok p => stepAttempts (max 1 ((p.int? "count").getD 1)).toNat e
  | some (.resume, words), some e =>
    match parse resumeSpec words with
    | .error _ => 0
    | .ok p =>
      if p.isBlank "max" then 0 else resumeAttempts s.breakpoints (p.int? "max") fuel 0 e
  | _, _ => 0

/-! ### The loops -/

/-- A single step of the debugger makes a step and a flush. -/
theorem singleStep_engine {e : Engine} (h : e.running = true) :
    (singleStep e).engine = e.next.flush := by
  unfold singleStep Engine.next
  rw [if_pos h]
  rcases e.step with ⟨e', _ | (_ | _ | _)⟩ <;> rfl

/-- A single step of the debugger is a step of the engine, but for the flush. -/
theorem singleStep_like {e e' : Engine} (h : e.Like Port.FlushAlike e') :
    (singleStep e).engine.Like Port.FlushAlike (e'.after (attempt e)) := by
  by_cases hrun : e.running = true
  · have hnext : e.next.Like Port.FlushAlike e'.next :=
      (Engine.step_like Port.flushAlike_simulation h).1
    rw [singleStep_engine hrun, attempt, if_pos hrun]
    exact e.next.flush_like.trans hnext
  · rw [singleStep, if_neg hrun, attempt, if_neg hrun]
    exact h

/-- `stepMany` makes as many steps of the engine as it attempts chunks. -/
theorem stepMany_like (count : Nat) : ∀ {e e' : Engine}, e.Like Port.FlushAlike e' →
    (stepMany count e).engine.Like Port.FlushAlike (e'.after (stepAttempts count e)) := by
  induction count with
  | zero => intro e e' h; exact h
  | succ count ih =>
    intro e e' h
    have hfirst := singleStep_like h
    simp only [stepMany, stepAttempts]
    cases (singleStep e).verdict with
    | going =>
      rw [Engine.after_add]
      exact ih hfirst
    | stopped | escaped | unfinished => exact hfirst

/-- `resumeFrom` makes as many steps of the engine as it attempts chunks. -/
theorem resumeFrom_like (breakpoints : List Int) (limit : Option Int) (fuel : Nat) :
    ∀ (executed : Nat) {e e' : Engine}, e.Like Port.FlushAlike e' →
      (resumeFrom breakpoints limit fuel executed e).engine.Like Port.FlushAlike
        (e'.after (resumeAttempts breakpoints limit fuel executed e)) := by
  induction fuel with
  | zero =>
    intro executed e e' h
    rw [resumeFrom, resumeAttempts]
    split
    · exact h
    · split <;> exact h
  | succ fuel ih =>
    intro executed e e' h
    have hfirst := singleStep_like h
    rw [resumeFrom, resumeAttempts]
    split
    · exact h
    · split
      · exact h
      · simp only
        cases (singleStep e).verdict with
        | going =>
          rw [Engine.after_add]
          exact ih (executed + 1) hfirst
        | stopped | escaped | unfinished => exact hfirst

/-- A `step` line moves the engine by the chunks that it attempts. -/
theorem steppedEngine_like {r : Registry} {s : Session} {line : String} {words : List String}
    {e e₀ : Engine} (hasked : asked r s line = some (.step, words)) (he : s.engine = some e)
    (h : e.Like Port.FlushAlike e₀) (fuel : Nat) :
    (steppedEngine words e).Like Port.FlushAlike (e₀.after (attempted fuel r s line)) := by
  unfold attempted steppedEngine
  simp only [hasked, he]
  cases parse stepSpec words with
  | error refusal => exact h
  | ok p => exact stepMany_like _ h

/-- A `continue` line moves the engine by the chunks that it attempts. -/
theorem resumedEngine_like {r : Registry} {s : Session} {line : String} {words : List String}
    {e e₀ : Engine} (hasked : asked r s line = some (.resume, words)) (he : s.engine = some e)
    (h : e.Like Port.FlushAlike e₀) (fuel : Nat) :
    (resumedEngine fuel s.breakpoints words e).Like Port.FlushAlike
      (e₀.after (attempted fuel r s line)) := by
  unfold attempted resumedEngine
  simp only [hasked, he]
  cases parse resumeSpec words with
  | error refusal => exact h
  | ok p =>
    simp only
    split
    · exact h
    · exact resumeFrom_like _ _ _ 0 h

/-! ### One line -/

/-- A line with the surroundings in which it is entered. -/
structure Entry where
  line : String
  surroundings : Surroundings
  fuel : Nat

/-- The answer to an entry. -/
def Entry.reply (r : Registry) (s : Session) (x : Entry) : Reply :=
  dispatch x.fuel x.surroundings r s x.line

/-- Does the entry neither restart the program nor load one with success? -/
def Entry.calm (r : Registry) (s : Session) (x : Entry) : Bool :=
  match asked r s x.line with
  | some (.reset, _) => false
  | some (.load, _) => (x.reply r s).ended ≠ .status 0
  | _ => true

/-- The session has an engine which is like the given one, and a seed that can be used at any time. -/
structure Carries (s : Session) (e₀ : Engine) : Prop where
  engine : ∃ e, s.engine = some e ∧ e.Like Port.FlushAlike e₀
  seed : ∀ clock, ∃ n, s.seed.value clock = .ok n

/-- **A line moves the engine by the chunks that it attempts**, and does nothing else to it. -/
theorem reply_carries {r : Registry} {s : Session} {x : Entry} {e₀ : Engine} (h : Carries s e₀)
    (hcalm : x.calm r s = true) :
    Carries (x.reply r s).session (e₀.after (attempted x.fuel r s x.line)) := by
  obtain ⟨⟨e, he, hlike⟩, hseed⟩ := h
  have hport : s.port? = some e.port := by rw [Session.port?, he]
  unfold Entry.reply
  cases hasked : asked r s x.line with
  | none =>
    rw [dispatch_of_not_asked hasked]
    simp only [attempted, hasked]
    exact ⟨⟨e, he, hlike⟩, hseed⟩
  | some request =>
    obtain ⟨action, words⟩ := request
    have hframe := perform_frame x.fuel x.surroundings r s words action
    simp only [Entry.calm, Entry.reply, hasked, dispatch_of_asked hasked] at hcalm ⊢
    cases action with
    | reset => cases hcalm
    | load =>
      obtain ⟨n, hn⟩ := hseed x.surroundings.clock
      have hfailed : (load x.surroundings s words).ended ≠ .status 0 := by
        simp only [perform] at hcalm
        exact of_decide_eq_true hcalm
      rw [perform, load_fails hport hn hfailed]
      simp only [attempted, hasked]
      exact ⟨⟨e, he, hlike⟩, hseed⟩
    | step =>
      rw [perform, step_session he]
      exact ⟨⟨_, rfl, steppedEngine_like hasked he hlike x.fuel⟩, hseed⟩
    | resume =>
      rw [perform, goOn_session he]
      exact ⟨⟨_, rfl, resumedEngine_like hasked he hlike x.fuel⟩, hseed⟩
    | help | breakpoints | stack | info | listing | aliases | exit | missing =>
      obtain ⟨b, a, hsession⟩ := hframe rfl
      rw [hsession]
      simp only [attempted, hasked]
      exact ⟨⟨e, he, hlike⟩, hseed⟩

/-! ### Any lines -/

/-- The session after some entries. -/
def sessionAfter (r : Registry) : List Entry → Session → Session
  | [], s => s
  | x :: rest, s => sessionAfter r rest (x.reply r s).session

/-- The number of chunks that some entries attempt. -/
def totalAttempted (r : Registry) : List Entry → Session → Nat
  | [], _ => 0
  | x :: rest, s => attempted x.fuel r s x.line + totalAttempted r rest (x.reply r s).session

/-- Is each of the entries calm when it is its turn? -/
def allCalm (r : Registry) : List Entry → Session → Bool
  | [], _ => true
  | x :: rest, s => x.calm r s && allCalm r rest (x.reply r s).session

theorem sessionAfter_carries {r : Registry} (entries : List Entry) :
    ∀ {s : Session} {e₀ : Engine}, Carries s e₀ → allCalm r entries s = true →
      Carries (sessionAfter r entries s) (e₀.after (totalAttempted r entries s)) := by
  induction entries with
  | nil => intro s e₀ h _; exact h
  | cons x rest ih =>
    intro s e₀ h hcalm
    obtain ⟨hfirst, hrest⟩ := Bool.and_eq_true_iff.1 hcalm
    rw [totalAttempted, Engine.after_add]
    exact ih (reply_carries h hfirst) hrest

theorem seed_usable {seed : Seed} {clock n : Int} (h : seed.value clock = .ok n) (clock' : Int) :
    ∃ n', seed.value clock' = .ok n' := by
  cases seed with
  | clock => exact ⟨clock', rfl⟩
  | number i => exact ⟨i, rfl⟩
  | blank => cases h

/-- A session of which nothing is known but its port, its output form and its seed. -/
def freshSession (port : Port) (json : Bool) (seed : Seed) : Session :=
  { freshPort := some port, json, seed }

/-- **The debugger does not disturb the program.** Let a line load a program with success in a fresh
session on some port, and let any other lines follow, in any surroundings, of which none restarts the
program or loads one with success. Then the engine of the session shows the same as a bare engine for
that program, port and seed after as many steps as the lines attempted chunks. Lines other than `step`
and `continue` attempt none. -/
theorem session_transparent (r : Registry) (port : Port) (json : Bool) (seed : Seed) (first : Entry)
    {words : List String}
    (hasked : asked r (freshSession port json seed) first.line = some (.load, words))
    (hloaded : (first.reply r (freshSession port json seed)).ended = .status 0)
    {entries : List Entry}
    (hcalm : allCalm r entries (first.reply r (freshSession port json seed)).session = true) :
    ∃ path program n e,
      (first.reply r (freshSession port json seed)).session.path = some path ∧
      first.surroundings.files.loadProgram path = .ok program ∧
      seed.value first.surroundings.clock = .ok n ∧
      (sessionAfter r entries (first.reply r (freshSession port json seed)).session).engine =
        some e ∧
      e.Shows ((Engine.start program port n false).after
        (totalAttempted r entries (first.reply r (freshSession port json seed)).session)) := by
  have hreply : first.reply r (freshSession port json seed) =
      load first.surroundings (freshSession port json seed) words := dispatch_of_asked hasked
  rw [hreply] at hloaded hcalm ⊢
  have hport : (freshSession port json seed).port? = some port := rfl
  obtain ⟨path, program, n, hfile, hseed, hsession⟩ := load_succeeds hport hloaded
  have hcarries : Carries (load first.surroundings (freshSession port json seed) words).session
      (Engine.start program port n false) := by
    rw [hsession]
    exact ⟨⟨_, rfl, Engine.Like.refl _⟩, seed_usable hseed⟩
  obtain ⟨⟨e, he, hlike⟩, -⟩ := sessionAfter_carries entries hcarries hcalm
  exact ⟨path, program, n, e, by rw [hsession]; rfl, hfile, hseed, he, hlike.shows⟩

/-- Surroundings with one program file: its first chunk goes to the second, which puts out a byte and
halts. -/
def oneFile : Surroundings :=
  { files := { nodes := [(["p"], .file (encodeText "5FFFF 31BFF"))] } }

/-- The line that loads it. -/
def loading : Entry := ⟨"load p", oneFile, 0⟩

/-- Lines that step, look around, fail and go on. -/
def mixedLines : List Entry :=
  ["step", "info", "break add 1", "load q", "step x", "continue", "step 3"].map (⟨·, oneFile, 9⟩)

/-- After the mixed lines the engine shows what the bare one shows after the two chunks of the
program. -/
theorem session_transparent_mixed :
    allCalm registry mixedLines
      (loading.reply registry (freshSession (Port.ofBuffer []) false (.number 0))).session = true ∧
    ∃ path program n e,
      oneFile.files.loadProgram path = .ok program ∧ Seed.value 0 (.number 0) = .ok n ∧
      (sessionAfter registry mixedLines
        (loading.reply registry (freshSession (Port.ofBuffer []) false (.number 0))).session).engine =
          some e ∧
      e.Shows ((Engine.start program (Port.ofBuffer []) n false).after 2) := by
  have hasked : asked registry (freshSession (Port.ofBuffer []) false (.number 0)) loading.line =
      some (.load, ["p"]) := by decide +kernel
  have hloaded : (loading.reply registry
      (freshSession (Port.ofBuffer []) false (.number 0))).ended = .status 0 := by decide +kernel
  have hcalm : allCalm registry mixedLines (loading.reply registry
      (freshSession (Port.ofBuffer []) false (.number 0))).session = true := by decide +kernel
  have htotal : totalAttempted registry mixedLines (loading.reply registry
      (freshSession (Port.ofBuffer []) false (.number 0))).session = 2 := by decide +kernel
  obtain ⟨path, program, n, e, -, hfile, hn, he, hshows⟩ :=
    session_transparent registry (Port.ofBuffer []) false (.number 0) loading hasked hloaded hcalm
  rw [htotal] at hshows
  exact ⟨hcalm, path, program, n, e, hfile, hn, he, hshows⟩

end ChunkMachine.Debugger
