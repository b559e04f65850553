import ChunkMachine.Proofs.Invariant
import ChunkMachine.Proofs.Transparency

/-!
# What a line can make of a session

A line takes a session to another one, and there are few ways in which it can. `Turns` lists them, each
with what is known of the session that it leads to, and `reply_turns` says that there are no others,
whatever the line is and however it ends. What holds of every session that lines can lead to is read off
this list (`sessionAfter_keeps`).

## What is proved

* `stepMany_reaches`, `resumeFrom_reaches`: the loops of the debugger only step and flush the engine.
* `reply_turns`: a line turns a session in one of the ways listed.
* `sessionAfter_placed`: the engine of a session always stands on a chunk of its program.
-/

namespace ChunkMachine

theorem Engine.Reaches.trans {a b c : Engine} (hab : a.Reaches b) (hbc : b.Reaches c) :
    a.Reaches c := by
  induction hbc with
  | refl => exact hab
  | step _ ih => exact .step ih
  | run limit _ ih => exact .run limit ih
  | runToEnd _ hend ih => exact .runToEnd ih hend

namespace Debugger

open Options

/-! ### The loops -/

theorem singleStep_reaches (e : Engine) : e.Reaches (singleStep e).engine := by
  by_cases hrun : e.running = true
  · rw [singleStep_engine hrun]
    -- a flush is a run of no steps
    exact .run 0 (.step .refl)
  · rw [singleStep, if_neg hrun]
    exact .refl

theorem stepMany_reaches (count : Nat) : ∀ e : Engine, e.Reaches (stepMany count e).engine := by
  induction count with
  | zero => intro e; exact .refl
  | succ count ih =>
    intro e
    have hfirst := singleStep_reaches e
    simp only [stepMany]
    cases (singleStep e).verdict with
    | going => exact hfirst.trans (ih _)
    | stopped | escaped | unfinished => exact hfirst

theorem resumeFrom_reaches (breakpoints : List Int) (limit : Option Int) (fuel : Nat) :
    ∀ (executed : Nat) (e : Engine),
      e.Reaches (resumeFrom breakpoints limit fuel executed e).engine := by
  induction fuel with
  | zero =>
    intro executed e
    rw [resumeFrom]
    split
    · exact .refl
    · split <;> exact .refl
  | succ fuel ih =>
    intro executed e
    have hfirst := singleStep_reaches e
    rw [resumeFrom]
    split
    · exact .refl
    · split
      · exact .refl
      · simp only
        cases (singleStep e).verdict with
        | going => exact hfirst.trans (ih _ _)
        | stopped | escaped | unfinished => exact hfirst

theorem steppedEngine_reaches (words : List String) (e : Engine) :
    e.Reaches (steppedEngine words e) := by
  unfold steppedEngine
  split
  · exact .refl
  · exact stepMany_reaches _ e

theorem resumedEngine_reaches (fuel : Nat) (breakpoints : List Int) (words : List String)
    (e : Engine) : e.Reaches (resumedEngine fuel breakpoints words e) := by
  unfold resumedEngine
  split
  · exact .refl
  · split
    · exact .refl
    · exact resumeFrom_reaches _ _ fuel 0 e

/-- An engine runs the same program after any steps. -/
theorem reaches_program {e e' : Engine} (h : e.Reaches e') : e'.code.program = e.code.program :=
  h.keeps (P := fun x => x.code.program = e.code.program)
    (fun x hx => x.program_next.trans hx) (fun _ hx => hx) rfl

/-- The program of a session is not changed where its engine is moved. -/
theorem program_moved {s : Session} {e e' : Engine} (he : s.engine = some e) (h : e.Reaches e') :
    Session.program { s with engine := some e' } = s.program := by
  unfold Session.program Session.code
  cases s.held <;> simp [he, reaches_program h]

/-! ### One line -/

/-- The sessions that an entry can turn a session into. -/
inductive Turns (r : Registry) (s : Session) (x : Entry) : Session → Prop where
  /-- Nothing is changed. -/
  | same : Turns r s x s
  /-- A breakpoint is set. -/
  | added {words : List String} {i : Int} {s' : Session}
    (hasked : asked r s x.line = some (.breakpoints, words))
    (hrequest : breakRequest words = .ok (.add i)) (hadd : s.addBreakpoint i = .ok s') :
    Turns r s x s'
  /-- Breakpoints are cleared. -/
  | cleared {b : List Int} (hb : ∀ i ∈ b, i ∈ s.breakpoints) :
    Turns r s x { s with breakpoints := b }
  /-- Aliases are changed. -/
  | renamed (a : List (String × String)) : Turns r s x { s with aliases := a }
  /-- A program is loaded and started. -/
  | loaded {path : Path} {program : Program} {s' : Session} {e : Engine}
    (hreset : (s.adopt path program).reset x.surroundings.clock = .ok (s', e)) : Turns r s x s'
  /-- A program is taken over and cannot be started. -/
  | adopted (path : Path) (program : Program) {fault : SessionFault}
    (hreset : (s.adopt path program).reset x.surroundings.clock = .error fault) :
    Turns r s x (s.adopt path program)
  /-- The program is restarted. -/
  | restarted {s' : Session} {e : Engine} (hreset : s.reset x.surroundings.clock = .ok (s', e)) :
    Turns r s x s'
  /-- The program cannot be restarted, but its flags are cleared. -/
  | uncovered {fault : SessionFault} (hreset : s.reset x.surroundings.clock = .error fault) :
    Turns r s x s.resetVisited
  /-- The engine is moved. -/
  | moved {e e' : Engine} (he : s.engine = some e) (hreach : e.Reaches e') :
    Turns r s x { s with engine := some e' }

theorem breakpoints_turns {r : Registry} {s : Session} {x : Entry} {words : List String}
    (hasked : asked r s x.line = some (.breakpoints, words)) :
    Turns r s x (breakpoints s words).session := by
  unfold breakpoints
  split
  · rw [session_misused]
    exact .same
  · rename_i i hrequest
    rw [session_writing]
    split
    · exact .same
    · rename_i s' hadd
      exact .added hasked hrequest hadd
  · rw [session_writing]
    split
    · exact .same
    · rename_i s' hclear
      unfold Session.clearBreakpoint at hclear
      split at hclear
      · cases hclear
        exact .cleared fun i hi => (List.mem_filter.1 hi).1
      · cases hclear
  · exact .cleared fun i hi => by cases hi
  · rw [session_writing]
    exact .same

theorem step_turns {r : Registry} {s : Session} {x : Entry} (words : List String) :
    Turns r s x (step s words).session := by
  cases he : s.engine with
  | none =>
    unfold step
    simp only [Session.needEngine, he]
    split
    · rw [session_misused]
      exact .same
    · exact .same
  | some e =>
    rw [step_session he]
    exact .moved he (steppedEngine_reaches words e)

theorem goOn_turns {r : Registry} {s : Session} {x : Entry} (fuel : Nat) (words : List String) :
    Turns r s x (goOn fuel s words).session := by
  cases he : s.engine with
  | none =>
    unfold goOn
    simp only [Session.needEngine, he]
    split
    · rw [session_misused]
      exact .same
    · exact .same
  | some e =>
    rw [goOn_session he]
    exact .moved he (resumedEngine_reaches fuel s.breakpoints words e)

/-- **A line turns a session in one of the ways listed.** -/
theorem reply_turns (r : Registry) (s : Session) (x : Entry) :
    Turns r s x (x.reply r s).session := by
  unfold Entry.reply
  cases hasked : asked r s x.line with
  | none =>
    rw [dispatch_of_not_asked hasked]
    exact .same
  | some request =>
    obtain ⟨action, words⟩ := request
    rw [dispatch_of_asked hasked]
    cases action with
    | load =>
      rcases load_cases x.surroundings s words with ⟨path, program, s', e, -, hreset, hsession, -⟩ |
        ⟨hsession, -⟩ | ⟨path, program, fault, hreset, hsession, -⟩
      · rw [perform, hsession]
        exact .loaded hreset
      · rw [perform, hsession]
        exact .same
      · rw [perform, hsession]
        exact .adopted path program hreset
    | reset =>
      simp only [perform, reset]
      cases hreset : s.reset x.surroundings.clock with
      | error fault =>
        rw [session_failed]
        exact .uncovered hreset
      | ok result =>
        rw [session_writing, session_done]
        exact .restarted hreset
    | step => exact step_turns words
    | resume => exact goOn_turns x.fuel words
    | breakpoints => exact breakpoints_turns hasked
    | aliases =>
      obtain ⟨a, ha⟩ := aliases_session s words
      rw [perform, ha]
      exact .renamed a
    | help | stack | info | listing =>
      simp only [perform, help_session, stack_session, info_session, listing_session]
      exact .same
    | exit | missing => exact .same

/-! ### Any lines -/

/-- What every turn keeps, any lines keep. -/
theorem sessionAfter_keeps {r : Registry} {P : Session → Prop}
    (hturn : ∀ {s s' : Session} {x : Entry}, Turns r s x s' → P s → P s') (entries : List Entry) :
    ∀ {s : Session}, P s → P (sessionAfter r entries s) := by
  induction entries with
  | nil => intro s h; exact h
  | cons x rest ih =>
    intro s h
    exact ih (hturn (reply_turns r s x) h)

/-- The engine of the session, if there is one, stands on a chunk of its program. -/
def Session.Placed (s : Session) : Prop := ∀ e, s.engine = some e → e.Placed

theorem reset_placed {clock : Int} {s s' : Session} {e : Engine}
    (h : s.reset clock = .ok (s', e)) : s'.Placed := by
  obtain ⟨program, port, n, -, -, -, rfl, rfl⟩ := reset_eq_ok h
  intro e he
  cases he
  exact Engine.start_placed program port n false

theorem turns_placed {r : Registry} {s s' : Session} {x : Entry} (h : Turns r s x s')
    (hs : s.Placed) : s'.Placed := by
  cases h with
  | same | cleared | renamed | adopted => exact hs
  | added _ _ hadd =>
    obtain ⟨b, rfl⟩ := addBreakpoint_session hadd
    exact hs
  | loaded hreset => exact reset_placed hreset
  | restarted hreset => exact reset_placed hreset
  | uncovered =>
    intro e' he'
    unfold Session.resetVisited at he'
    split at he'
    · exact hs e' he'
    · exact hs e' he'
    · obtain ⟨e, he, rfl⟩ := Option.map_eq_some_iff.1 he'
      exact Engine.resetVisited_placed (hs e he)
  | moved he hreach =>
    intro e' he'
    cases he'
    exact hreach.keeps (fun _ h => Engine.next_placed h) (fun _ h => Engine.flush_placed h) (hs _ he)

/-- **The engine of a session always stands on a chunk of its program**, also after an interrupt. -/
theorem sessionAfter_placed (r : Registry) (entries : List Entry) {s : Session} (h : s.Placed) :
    (sessionAfter r entries s).Placed :=
  sessionAfter_keeps turns_placed entries h

end Debugger

end ChunkMachine
