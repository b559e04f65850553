import ChunkMachine.Proofs.Resumption

/-!
# A line that is refused changes nothing

A line comes back with the status 1 when it is refused, and a refusal must not leave anything half done:
what a command tests, it must test before the first change that it makes. Whether it does is decided in
one place only for each command, so the property is read off the replies: `Reply.Spares` says of a reply
that it has the status 1 only with the session it was given.

One kind of line has the status 1 and changes something. It steps or resumes a program, and the program
fails on the way: then the chunks up to there have been executed, and nothing but the engine is changed.

## What is proved

* `load_spares`, `breakpoints_spares`, `aliases_spares`, …: each command that does not move the engine.
* `Move.StopsThere.blames`: a stop with an error means that the program failed.
* `rejected_unchanged`: a line with the status 1 changes nothing, unless the program failed under it.
-/

namespace ChunkMachine.Debugger

open Options

/-- The reply has the status 1 only if it leaves the session as it was. -/
def Reply.Spares (s : Session) (reply : Reply) : Prop := reply.ended = .status 1 → reply.session = s

/-! ### Replies -/

section Replies

variable {s : Session}

theorem spares_of_session {reply : Reply} (h : reply.session = s) : reply.Spares s := fun _ => h

/-- A command that did what it was asked may change anything: its status is 0. -/
theorem spares_done (s' : Session) (message : String) (data : Document) :
    (Reply.done s' message data).Spares s := by
  intro h
  cases h

theorem spares_escaped (s' : Session) (cause : Escape) : (Reply.escaped s' cause).Spares s := by
  intro h
  cases h

theorem spares_writing {reply : Reply} (numbers : List Int) (h : reply.Spares s) :
    (Reply.writing numbers reply).Spares s := by
  unfold Reply.writing
  split
  · exact h
  · exact spares_escaped _ _

end Replies

/-! ### Commands that do not move the engine -/

theorem load_spares {s : Session} {port : Port} (hport : s.port? = some port) (w : Surroundings)
    (words : List String) : (load w s words).Spares s := by
  unfold load
  split
  · exact spares_of_session (session_misused s _ _)
  · simp only
    split
    · exact spares_escaped _ _
    · rename_i path hpath
      split
      · exact spares_escaped _ _
      · exact spares_of_session rfl
      · rename_i program hfile
        split
        · rename_i fault hreset
          -- the program has been taken over by now, but with a port the line does not come back
          have hport' : (s.adopt path program).port? = some port := hport
          rcases reset_eq_error hreset with ⟨-, hnone⟩ | ⟨-, hnone⟩ | ⟨rfl, -⟩
          · exact absurd hnone (by simp)
          · rw [hport'] at hnone
            cases hnone
          · exact spares_escaped _ _
        · intro h
          cases h

theorem reset_spares {s : Session} {port : Port} (hport : s.port? = some port) (w : Surroundings) :
    (reset w s).Spares s := by
  unfold reset
  split
  · rename_i fault hreset
    rcases reset_eq_error hreset with ⟨-, hnone⟩ | ⟨-, hnone⟩ | ⟨rfl, -⟩
    · have hcode : s.code = none := by simpa [Session.program] using hnone
      rw [Session.resetVisited_of_none hcode]
      exact spares_of_session (session_failed s _)
    · rw [hport] at hnone
      cases hnone
    · exact spares_escaped _ _
  · exact spares_writing _ (spares_done _ _ _)

theorem breakpoints_spares (s : Session) (words : List String) : (breakpoints s words).Spares s := by
  unfold breakpoints
  split
  · exact spares_of_session (session_misused s _ _)
  · refine spares_writing _ ?_
    split
    · exact spares_of_session rfl
    · exact spares_done _ _ _
  · refine spares_writing _ ?_
    split
    · exact spares_of_session rfl
    · exact spares_done _ _ _
  · exact spares_done _ _ _
  · exact spares_writing _ (spares_done _ _ _)

theorem aliases_spares (s : Session) (words : List String) : (aliases s words).Spares s := by
  unfold aliases
  split
  · exact spares_of_session (session_misused s _ _)
  · split
    · exact spares_done _ _ _
    · exact spares_of_session rfl
    · exact spares_done _ _ _

/-- **A command that does not move the engine changes nothing where it is refused.** -/
theorem perform_spares {s : Session} {port : Port} (hport : s.port? = some port) (fuel : Nat)
    (w : Surroundings) (r : Registry) (words : List String) {action : Action}
    (hstep : action ≠ .step) (hresume : action ≠ .resume) :
    (perform fuel w r s words action).Spares s := by
  cases action with
  | load => exact load_spares hport w words
  | reset => exact reset_spares hport w
  | breakpoints => exact breakpoints_spares s words
  | aliases => exact aliases_spares s words
  | help => exact spares_of_session (help_session r s words)
  | stack => exact spares_of_session (stack_session s)
  | info => exact spares_of_session (info_session s)
  | listing => exact spares_of_session (listing_session s words)
  | exit | missing => exact spares_of_session rfl
  | step => exact absurd rfl hstep
  | resume => exact absurd rfl hresume

/-! ### Stops with an error -/

/-- A stop with an error is blamed on the program: it failed, for the reason that the stop names. -/
def Move.Blames (m : Move) : Prop :=
  ∀ stop, m.verdict = .stopped stop → stop.failed = true →
    ∃ fault, m.engine.status = .failed fault ∧ stop.error = some fault.message

theorem Move.StopsThere.blames {m : Move} (h : m.StopsThere) : m.Blames := by
  intro stop hstop hfailed
  cases h stop hstop with
  | calm hreason => cases hfailed
  | failed hfault => exact ⟨_, hfault, rfl⟩

/-! ### A program that has ended -/

theorem stepMany_of_not_running {e : Engine} (h : e.status ≠ .running) (count : Nat) :
    (stepMany count e).engine = e := by
  have hrun : ¬ e.running = true := fun hr => h (Engine.running_iff.1 hr)
  cases count with
  | zero => rfl
  | succ count =>
    simp only [stepMany, singleStep, if_neg hrun]
    rcases endVerdict_cases e with ⟨-, hr⟩ | ⟨⟨stop, hstop⟩, -⟩
    · exact absurd hr h
    · rw [hstop]

theorem resumeFrom_of_not_running {e : Engine} (h : e.status ≠ .running) (breakpoints : List Int)
    (limit : Option Int) (fuel executed : Nat) :
    (resumeFrom breakpoints limit fuel executed e).engine = e := by
  have hrun : ¬ e.running = true := fun hr => h (Engine.running_iff.1 hr)
  unfold resumeFrom
  split
  · rfl
  · split
    · rfl
    · cases fuel with
      | zero => rfl
      | succ fuel =>
        simp only [singleStep, if_neg hrun]
        rcases endVerdict_cases e with ⟨-, hr⟩ | ⟨⟨stop, hstop⟩, -⟩
        · exact absurd hr h
        · rw [hstop]

/-! ### Lines that move the engine -/

/-- The line steps or resumes a running program. It executes chunks, the program fails in the last of
them, and nothing but the engine is changed. -/
def RunsIntoFault (r : Registry) (s : Session) (x : Entry) : Prop :=
  ∃ action words e e' fault,
    asked r s x.line = some (action, words) ∧ (action = .step ∨ action = .resume) ∧
    s.engine = some e ∧ e.status = .running ∧
    0 < attempted x.fuel r s x.line ∧ e'.Shows (e.after (attempted x.fuel r s x.line)) ∧
    e'.status = .failed fault ∧ (x.reply r s).session = { s with engine := some e' }

theorem moved_rejected {s : Session} {m : Move} (h : (moved s m).ended = .status 1) :
    ∃ stop, m.verdict = .stopped stop ∧ stop.failed = true := by
  unfold moved at h
  cases hverdict : m.verdict with
  | stopped stop =>
    refine ⟨stop, rfl, ?_⟩
    simp only [hverdict] at h
    by_contra hfailed
    simp [hfailed] at h
  | escaped | going | unfinished =>
    simp only [hverdict] at h
    cases h

/-- A move that ends with the status 1 did nothing to a program that had ended, or it ran into a
fault. -/
theorem moved_unchanged_or {r : Registry} {s : Session} {x : Entry} {action : Action}
    {words : List String} {e : Engine} {m : Move} (hasked : asked r s x.line = some (action, words))
    (haction : action = .step ∨ action = .resume) (he : s.engine = some e)
    (hreply : x.reply r s = moved s m) (hblames : m.Blames)
    (hended : e.status ≠ .running → m.engine = e)
    (hlike : m.engine.Like Port.FlushAlike (e.after (attempted x.fuel r s x.line)))
    (h : (x.reply r s).ended = .status 1) : (x.reply r s).session = s ∨ RunsIntoFault r s x := by
  rw [hreply] at h
  have hsession : (x.reply r s).session = { s with engine := some m.engine } := by
    rw [hreply, moved_session]
  obtain ⟨stop, hstop, hfailed⟩ := moved_rejected h
  obtain ⟨fault, hfault, -⟩ := hblames stop hstop hfailed
  by_cases hrun : e.status = .running
  · refine .inr ⟨action, words, e, m.engine, fault, hasked, haction, he, hrun, ?_, hlike.shows, hfault,
      hsession⟩
    -- the program goes on before the line and has failed after it, so there was a chunk between
    refine Nat.pos_of_ne_zero fun hzero => ?_
    have hstatus := hlike.status
    rw [hzero, Engine.after_zero, hrun, hfault] at hstatus
    cases hstatus
  · refine .inl ?_
    rw [hsession, hended hrun, ← he]

theorem step_unchanged_or {r : Registry} {s : Session} {x : Entry} {words : List String}
    (hasked : asked r s x.line = some (.step, words)) (h : (x.reply r s).ended = .status 1) :
    (x.reply r s).session = s ∨ RunsIntoFault r s x := by
  rcases step_reply_or hasked with ⟨hsession, -⟩ | ⟨e, count, he, hreply, hattempted⟩
  · exact .inl hsession
  · refine moved_unchanged_or hasked (.inl rfl) he hreply (stepMany_stopsThere count e).blames
      (fun hrun => stepMany_of_not_running hrun count) ?_ h
    rw [hattempted]
    exact stepMany_like count (Engine.Like.refl e)

theorem goOn_unchanged_or {r : Registry} {s : Session} {x : Entry} {words : List String}
    (hasked : asked r s x.line = some (.resume, words)) (h : (x.reply r s).ended = .status 1) :
    (x.reply r s).session = s ∨ RunsIntoFault r s x := by
  rcases goOn_reply_or hasked with ⟨hsession, -⟩ | ⟨e, limit, he, hreply, hattempted⟩
  · exact .inl hsession
  · refine moved_unchanged_or hasked (.inr rfl) he hreply (resumeFrom_stopsThere _ _ _ 0 e).blames
      (fun hrun => resumeFrom_of_not_running hrun _ _ _ 0) ?_ h
    rw [hattempted]
    exact resumeFrom_like _ _ _ 0 (Engine.Like.refl e)

/-! ### Any line -/

/-- **A line that is refused changes nothing.** Let a line be entered in a session that has a port, in any
surroundings, and let it come back with the status 1. Then the session is in every part what it was
before, or else the line stepped or resumed a program that was running and executed chunks up to one in
which the program failed. -/
theorem rejected_unchanged (r : Registry) (s : Session) (hport : s.port?.isSome) (x : Entry)
    (h : (x.reply r s).ended = .status 1) : (x.reply r s).session = s ∨ RunsIntoFault r s x := by
  obtain ⟨port, hport⟩ := Option.isSome_iff_exists.1 hport
  cases hasked : asked r s x.line with
  | none => exact .inl (dispatch_of_not_asked hasked)
  | some request =>
    obtain ⟨action, words⟩ := request
    by_cases hstep : action = .step
    · subst hstep
      exact step_unchanged_or hasked h
    · by_cases hresume : action = .resume
      · subst hresume
        exact goOn_unchanged_or hasked h
      · have hreply : x.reply r s = perform x.fuel x.surroundings r s words action :=
          dispatch_of_asked hasked
        rw [hreply] at h ⊢
        exact .inl (perform_spares hport x.fuel x.surroundings r words hstep hresume h)

/-- A session in which a program is loaded, has a breakpoint and was stepped. -/
def underway : Session :=
  sessionAfter registry [loading, ⟨"break add 1", oneFile, 0⟩, ⟨"step", oneFile, 0⟩]
    (freshSession (Port.ofBuffer []) false (.number 0))

/-- A line that loads a file with a character that no program has. -/
def loadingForeign : Entry :=
  ⟨"load q", { files := { nodes := [(["q"], .file (encodeText "55x55"))] } }, 0⟩

/-- A file that holds no program is refused, and the session in which another program is under way stays
as it was. -/
theorem rejected_unchanged_foreign :
    underway.port?.isSome ∧ (loadingForeign.reply registry underway).ended = .status 1 ∧
    (loadingForeign.reply registry underway).session = underway := by
  have hport : underway.port?.isSome := by decide +kernel
  have hrefused : (loadingForeign.reply registry underway).ended = .status 1 := by decide +kernel
  have hasked : asked registry underway loadingForeign.line = some (.load, ["q"]) := by decide +kernel
  refine ⟨hport, hrefused, ?_⟩
  refine (rejected_unchanged registry underway hport loadingForeign hrefused).resolve_right ?_
  rintro ⟨action, words, e, e', fault, hline, haction, -⟩
  rw [hasked] at hline
  cases hline
  rcases haction with haction | haction <;> cases haction

end ChunkMachine.Debugger
