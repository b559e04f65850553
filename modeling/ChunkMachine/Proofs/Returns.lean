import ChunkMachine.Proofs.Arguments
import ChunkMachine.Proofs.Resumption

/-!
# Which lines come back to the prompt

A line should come back with a status, 0 or 1, unless it is `exit`. Most lines do: what is wrong with
their arguments, with a file or with the program is reported. The others are listed here. `BrokenOff` has
one constructor for each way in which a command is broken off or leaves the debugger, and `RunsOn` says
that a program is resumed which goes on for ever. A line that is none of these comes back, and one that
is some of them does not (`comes_back_iff`).

The first way is the least expected. The commands take no switch for their help, so that they cannot
leave the debugger by giving it. The subcommands of `break` do take one. The other ways are values that a
command does not count on: numbers that are too long to be written, such as a seed, paths that begin with a
home that is not known or hold a null character, and values that were dropped.

## What is proved

* `breakRequest_help_iff`: of all the arguments, only those of a subcommand of `break` can ask for help.
* `BrokenOff.not_answered`: what is broken off does not come back, however long it is waited for.
* `perform_answered_or`: any action but `exit` and `continue` comes back or is broken off.
* `goOn_comes_back_iff`: `continue` comes back unless it is broken off or the program goes on for ever.
* `comes_back_iff`: which lines come back, in any session that lines can lead to.
-/

namespace ChunkMachine.Debugger

open Options

/-! ### Replies -/

/-- The reply comes with a status, 0 or 1. -/
def Reply.Answered (reply : Reply) : Prop := reply.ended = .status 0 ∨ reply.ended = .status 1

section Replies

variable {s : Session}

theorem answered_done {message : String} {data : Document} :
    (Reply.done s message data).Answered := .inl rfl

theorem answered_refused {message : String} : (Reply.refused s message).Answered := .inr rfl

theorem not_answered_escaped (cause : Escape) : ¬ (Reply.escaped s cause).Answered := by
  simp [Reply.Answered, Reply.escaped]

theorem answered_misused_iff (spec : Spec) (refusal : Refusal) :
    (Reply.misused s spec refusal).Answered ↔ refusal ≠ .help := by
  cases refusal with
  | usage message => exact iff_of_true answered_refused (by simp)
  | help => simp [Reply.Answered, Reply.misused]

theorem answered_writing_iff (numbers : List Int) (reply : Reply) :
    (Reply.writing numbers reply).Answered ↔
      (∀ i ∈ numbers, Text.writable i = true) ∧ reply.Answered := by
  unfold Reply.writing
  split
  · rename_i hall
    exact (and_iff_right (List.all_eq_true.1 hall)).symm
  · rename_i hall
    exact iff_of_false (not_answered_escaped _) fun h => hall (List.all_eq_true.2 h.1)

theorem answered_moved_iff (m : Move) :
    (moved s m).Answered ↔ ∃ stop, m.verdict = .stopped stop := by
  unfold moved
  cases hverdict : m.verdict with
  | stopped stop =>
    refine iff_of_true ?_ ⟨stop, rfl⟩
    simp only [Reply.Answered]
    cases stop.failed <;> simp
  | escaped cause => simp [Reply.Answered, Reply.escaped]
  | going | unfinished => simp [Reply.Answered]

end Replies

/-! ### What breaks a command off -/

/-- The path that a `load` line names. -/
def askedPath (p : Parsed) : Path := Path.ofString ((p.text? "path").getD "")

/-- The chunk that a listing starts at. -/
def askedStart (e : Engine) (p : Parsed) : Int := (p.int? "start").getD (max 0 (e.current - 2))

/-- The chunks that a listing shows. -/
def askedWindow (e : Engine) (p : Parsed) : List ChunkMachine.Entry :=
  window (askedStart e p) ((p.int? "count").getD 8) e.code.program.listing

/-- The ways in which an action other than `exit` is broken off or leaves the debugger. -/
inductive BrokenOff (w : Surroundings) (s : Session) : Action → List String → Prop where
  /-- A subcommand of `break` is asked for its help. -/
  | subcommandHelp {words arguments : List String} {p : Parsed} {name : String} {takesChunk : Bool}
    (hparse : parseKnown breakSpec words = .ok p)
    (hname : p.words? "subcmd" = some (name :: arguments))
    (hlookup : breakSubcommands.lookup name = some takesChunk)
    (hhelp : parseKnown (subcommandSpec name takesChunk) arguments = .error .help) :
    BrokenOff w s .breakpoints words
  /-- The chunk to set or clear a breakpoint at is too long to be written. -/
  | longChunk {words : List String} {i : Int}
    (hrequest : breakRequest words = .ok (.add i) ∨ breakRequest words = .ok (.clear i))
    (hlong : Text.writable i = false) : BrokenOff w s .breakpoints words
  /-- A breakpoint to be listed is too long to be written. -/
  | longBreakpoint {words : List String} {b : Int} (hrequest : breakRequest words = .ok .list)
    (hb : b ∈ s.breakpoints) (hlong : Text.writable b = false) : BrokenOff w s .breakpoints words
  /-- A listing names the chunk that it should start at, which is too long to be written. -/
  | longStart {words : List String} {p : Parsed} {e : Engine}
    (hparse : parse listingSpec words = .ok p) (he : s.engine = some e)
    (hnamed : askedStart e p < 0 ∨ askedWindow e p = [] ∧ s.json = false)
    (hlong : Text.writable (askedStart e p) = false) : BrokenOff w s .listing words
  /-- The path of a program begins with a home directory that cannot be found: the user is unknown, no
  home is known, or the home that is known begins with a tilde itself. -/
  | noHome {words : List String} {p : Parsed} {fault : HomeFault}
    (hparse : parse loadSpec words = .ok p) (hhome : (askedPath p).expandHome w.homes = .error fault) :
    BrokenOff w s .load words
  /-- The path of a program holds a null character. -/
  | nullByte {words : List String} {p : Parsed} {path : Path} (hparse : parse loadSpec words = .ok p)
    (hhome : (askedPath p).expandHome w.homes = .ok path)
    (hfile : w.files.loadProgram path = .error .nullByte) : BrokenOff w s .load words
  /-- A program is loaded in a session whose seed is blank. -/
  | loadSeed {words : List String} {p : Parsed} {path : Path} {program : Program} {port : Port}
    (hparse : parse loadSpec words = .ok p) (hhome : (askedPath p).expandHome w.homes = .ok path)
    (hfile : w.files.loadProgram path = .ok program) (hport : s.port? = some port)
    (hseed : s.seed = .blank) : BrokenOff w s .load words
  /-- A program is restarted in a session whose seed is blank. -/
  | resetSeed {words : List String} {program : Program} {port : Port}
    (hprogram : s.program = some program) (hport : s.port? = some port) (hseed : s.seed = .blank) :
    BrokenOff w s .reset words
  /-- A program is restarted where JSON is printed, with a seed that is too long to be written. -/
  | resetLongSeed {words : List String} {program : Program} {port : Port} {n : Int}
    (hprogram : s.program = some program) (hport : s.port? = some port)
    (hseed : s.seed.value w.clock = .ok n) (hjson : s.json = true) (hlong : Text.writable n = false) :
    BrokenOff w s .reset words
  /-- The state of an engine is shown, and its seed is too long to be written. -/
  | infoLongSeed {words : List String} {e : Engine} (he : s.engine = some e)
    (hlong : Text.writable e.seed = false) : BrokenOff w s .info words
  /-- A program is resumed with a blank limit. -/
  | blankLimit {words : List String} {p : Parsed} {e : Engine}
    (hparse : parse resumeSpec words = .ok p) (he : s.engine = some e)
    (hblank : p.isBlank "max" = true) : BrokenOff w s .resume words

/-- The action resumes, without a limit, a program that goes on for ever. -/
def RunsOn (s : Session) (action : Action) (words : List String) : Prop :=
  action = .resume ∧ ∃ p e, parse resumeSpec words = .ok p ∧ p.isBlank "max" = false ∧
    p.int? "max" = none ∧ s.engine = some e ∧ Endless s.breakpoints e

/-! ### Arguments -/

/-- A command whose arguments cannot ask for help refuses those that it does not take. -/
theorem answered_misused {spec : Spec} (hsilent : spec.Silent) {words : List String}
    {refusal : Refusal} (h : parse spec words = .error refusal) (s : Session) :
    (Reply.misused s spec refusal).Answered := by
  rw [answered_misused_iff]
  rintro rfl
  exact parse_ne_help hsilent words h

/-- **The help of a `break` line is the help of a subcommand.** -/
theorem breakRequest_help_iff {words : List String} :
    (∃ refused, breakRequest words = .error refused ∧ refused.refusal = .help) ↔
      ∃ p name arguments takesChunk, parseKnown breakSpec words = .ok p ∧
        p.words? "subcmd" = some (name :: arguments) ∧
        breakSubcommands.lookup name = some takesChunk ∧
        parseKnown (subcommandSpec name takesChunk) arguments = .error .help := by
  constructor
  · rintro ⟨refused, hrefused, hhelp⟩
    unfold breakRequest at hrefused
    split at hrefused
    · rename_i refusal hparse
      cases hrefused
      exact absurd hhelp ((parseKnown_plain breakSpec (by decide) words).of_eq_error hparse)
    · rename_i p hparse
      simp only at hrefused
      split at hrefused
      · split at hrefused <;> cases hrefused
        cases hhelp
      · split at hrefused <;> cases hrefused
        cases hhelp
      · rename_i name arguments hname
        split at hrefused
        · cases hrefused
          cases hhelp
        · rename_i takesChunk hlookup
          split at hrefused
          · rename_i refusal hsub
            cases hrefused
            simp only at hhelp
            subst hhelp
            exact ⟨p, name, arguments, takesChunk, hparse, hname, hlookup, hsub⟩
          · split at hrefused <;> cases hrefused
            cases hhelp
  · rintro ⟨p, name, arguments, takesChunk, hparse, hname, hlookup, hhelp⟩
    refine ⟨⟨subcommandSpec name takesChunk, .help⟩, ?_, rfl⟩
    simp only [breakRequest, hparse, hname, hlookup, hhelp]

/-! ### Restarting -/

theorem reset_of_blank {s : Session} {program : Program} {port : Port}
    (hprogram : s.program = some program) (hport : s.port? = some port) (hseed : s.seed = .blank)
    (clock : Int) : s.reset clock = .error (.escape .blankSeed) := by
  simp [Session.reset, hprogram, hport, hseed, Seed.value]

/-- A restart that fails is reported, unless there is all that it takes but the seed. -/
theorem answered_failed_or {clock : Int} {s : Session} {fault : SessionFault}
    (h : s.reset clock = .error fault) :
    (∀ s' : Session, (Reply.failed s' fault).Answered) ∨
      ∃ program port, s.program = some program ∧ s.port? = some port ∧ s.seed = .blank := by
  rcases reset_eq_error h with ⟨rfl, -⟩ | ⟨rfl, -⟩ | ⟨-, hseed, program, port, hprogram, hport⟩
  · exact .inl fun _ => answered_refused
  · exact .inl fun _ => answered_refused
  · exact .inr ⟨program, port, hprogram, hport, hseed⟩

/-! ### Listing -/

/-- A listing of the loaded program. -/
theorem listing_of_engine {s : Session} {words : List String} {p : Parsed} {e : Engine}
    (hparse : parse listingSpec words = .ok p) (he : s.engine = some e) :
    listing s words =
      if askedStart e p < 0 then
        .writing [askedStart e p]
          (.refused s s!"disasm: start must be a chunk index, not {askedStart e p}")
      else
        .writing (if (askedWindow e p).isEmpty && !s.json then [askedStart e p] else [])
          (.done s (windowText (askedStart e p) e.current (askedWindow e p))
            (.record [("current", .int e.current),
              ("listing", .list ((askedWindow e p).map Entry.document))])) := by
  simp only [listing, hparse, Session.needEngine, he]
  rfl

/-! ### What is broken off does not come back -/

/-- **What is broken off does not come back**, however long it is waited for. -/
theorem BrokenOff.not_answered {w : Surroundings} {s : Session} {action : Action}
    {words : List String} (h : BrokenOff w s action words) (fuel : Nat) (r : Registry) :
    ¬ (perform fuel w r s words action).Answered := by
  cases h with
  | subcommandHelp hparse hname hlookup hhelp =>
    obtain ⟨refused, hrefused, hrefusal⟩ :=
      breakRequest_help_iff.2 ⟨_, _, _, _, hparse, hname, hlookup, hhelp⟩
    simp only [perform, breakpoints, hrefused, answered_misused_iff, hrefusal]
    simp
  | longChunk hrequest hlong =>
    rcases hrequest with hrequest | hrequest <;>
      simp [perform, breakpoints, hrequest, answered_writing_iff, hlong]
  | longBreakpoint hrequest hb hlong =>
    simp only [perform, breakpoints, hrequest, answered_writing_iff]
    intro hall
    rw [hall.1 _ hb] at hlong
    cases hlong
  | @longStart _ p e hparse he hnamed hlong =>
    rw [perform, listing_of_engine hparse he]
    by_cases hneg : askedStart e p < 0
    · rw [if_pos hneg, answered_writing_iff]
      simp [hlong]
    · obtain ⟨hempty, hjson⟩ := hnamed.resolve_left hneg
      rw [if_neg hneg, answered_writing_iff]
      simp [hempty, hjson, hlong]
  | noHome hparse hhome =>
    simp only [askedPath] at hhome
    simp only [perform, load, hparse, hhome]
    exact not_answered_escaped _
  | nullByte hparse hhome hfile =>
    simp only [askedPath] at hhome
    simp only [perform, load, hparse, hhome, hfile]
    exact not_answered_escaped _
  | @loadSeed _ _ path program _ hparse hhome hfile hport hseed =>
    simp only [askedPath] at hhome
    have hprogram : (s.adopt path program).program = some program := rfl
    have hreset : (s.adopt path program).reset w.clock = .error (.escape .blankSeed) :=
      reset_of_blank hprogram hport hseed w.clock
    simp only [perform, load, hparse, hhome, hfile, hreset]
    simp [Reply.Answered, Reply.failed, Reply.escaped]
  | resetSeed hprogram hport hseed =>
    simp only [perform, reset, reset_of_blank hprogram hport hseed]
    exact not_answered_escaped .blankSeed
  | resetLongSeed hprogram hport hseed hjson hlong =>
    simp [perform, reset, reset_of_loaded hprogram hport hseed, answered_writing_iff, Session.withEngine,
      hjson, Engine.start, hlong]
  | infoLongSeed he hlong =>
    simp [perform, info, Session.needEngine, he, hlong, Reply.Answered, Reply.escaped]
  | blankLimit hparse he hblank =>
    simp only [perform, goOn, hparse, Session.needEngine, he, hblank]
    exact not_answered_escaped _

/-! ### What is not broken off comes back -/

theorem load_answered_or (w : Surroundings) (s : Session) (words : List String) :
    (load w s words).Answered ∨ BrokenOff w s .load words := by
  unfold load
  split
  · rename_i refusal hparse
    exact .inl (answered_misused (by decide) hparse s)
  · rename_i p hparse
    simp only
    split
    · rename_i fault hhome
      exact .inr (.noHome hparse hhome)
    · rename_i path hhome
      split
      · rename_i hfile
        exact .inr (.nullByte hparse hhome hfile)
      · exact .inl answered_refused
      · rename_i program hfile
        split
        · rename_i fault hreset
          rcases answered_failed_or hreset with hanswered | ⟨_, port, -, hport, hseed⟩
          · exact .inl (hanswered _)
          · exact .inr (.loadSeed hparse hhome hfile hport hseed)
        · exact .inl (.inl rfl)

theorem writing_answered_or {numbers : List Int} {reply : Reply} (h : reply.Answered) :
    (Reply.writing numbers reply).Answered ∨ ∃ i ∈ numbers, Text.writable i = false := by
  by_cases hlong : ∃ i ∈ numbers, Text.writable i = false
  · exact .inr hlong
  · refine .inl ((answered_writing_iff numbers reply).2 ⟨fun i hi => ?_, h⟩)
    exact eq_true_of_ne_false fun hfalse => hlong ⟨i, hi, hfalse⟩

theorem reset_answered_or (w : Surroundings) (s : Session) (words : List String) :
    (reset w s).Answered ∨ BrokenOff w s .reset words := by
  unfold reset
  split
  · rename_i fault hreset
    rcases answered_failed_or hreset with hanswered | ⟨program, port, hprogram, hport, hseed⟩
    · exact .inl (hanswered _)
    · exact .inr (.resetSeed hprogram hport hseed)
  · rename_i s' e hreset
    obtain ⟨program, port, n, hprogram, hport, hseed, rfl, rfl⟩ := reset_eq_ok hreset
    refine (writing_answered_or answered_done).imp_right ?_
    rintro ⟨i, hi, hlong⟩
    split at hi
    · rename_i hjson
      rw [List.mem_singleton.1 hi] at hlong
      exact .resetLongSeed hprogram hport hseed hjson hlong
    · cases hi

theorem breakpoints_answered_or (w : Surroundings) (s : Session) (words : List String) :
    (breakpoints s words).Answered ∨ BrokenOff w s .breakpoints words := by
  unfold breakpoints
  split
  · rename_i refused hrefused
    by_cases hhelp : refused.refusal = .help
    · obtain ⟨p, name, arguments, takesChunk, hparse, hname, hlookup, hsub⟩ :=
        breakRequest_help_iff.1 ⟨refused, hrefused, hhelp⟩
      exact .inr (.subcommandHelp hparse hname hlookup hsub)
    · exact .inl ((answered_misused_iff _ _).2 hhelp)
  · rename_i i hrequest
    refine (writing_answered_or ?_).imp_right fun hlong => ?_
    · split
      · exact answered_refused
      · exact answered_done
    · exact .longChunk (.inl hrequest) (by simpa using hlong)
  · rename_i i hrequest
    refine (writing_answered_or ?_).imp_right fun hlong => ?_
    · split
      · exact answered_refused
      · exact answered_done
    · exact .longChunk (.inr hrequest) (by simpa using hlong)
  · exact .inl answered_done
  · rename_i hrequest
    refine (writing_answered_or answered_done).imp_right ?_
    rintro ⟨b, hb, hlong⟩
    exact .longBreakpoint hrequest hb hlong

theorem listing_answered_or (w : Surroundings) (s : Session) (words : List String) :
    (listing s words).Answered ∨ BrokenOff w s .listing words := by
  cases hparse : parse listingSpec words with
  | error refusal =>
    simp only [listing, hparse]
    exact .inl (answered_misused (by decide) hparse s)
  | ok p =>
    cases he : s.engine with
    | none =>
      simp only [listing, hparse, Session.needEngine, he]
      exact .inl answered_refused
    | some e =>
      rw [listing_of_engine hparse he]
      split
      · rename_i hneg
        refine (writing_answered_or answered_refused).imp_right fun hlong => ?_
        exact .longStart hparse he (.inl hneg) (by simpa using hlong)
      · refine (writing_answered_or answered_done).imp_right ?_
        rintro ⟨i, hi, hlong⟩
        split at hi
        · rename_i hnamed
          rw [List.mem_singleton.1 hi] at hlong
          simp only [Bool.and_eq_true, List.isEmpty_iff, Bool.not_eq_true'] at hnamed
          exact .longStart hparse he (.inr hnamed) hlong
        · cases hi

theorem step_answered {s : Session} (h : ∀ e, s.engine = some e → e.Steady) (words : List String) :
    (step s words).Answered := by
  unfold step
  split
  · rename_i refusal hparse
    exact answered_misused (by decide) hparse s
  · cases he : s.engine with
    | none =>
      simp only [Session.needEngine, he]
      exact answered_refused
    | some e =>
      simp only [Session.needEngine, he]
      exact (answered_moved_iff _).2 (stepMany_stops _ (h e he))

theorem aliases_answered (s : Session) (words : List String) : (aliases s words).Answered := by
  unfold aliases
  split
  · rename_i refusal hparse
    exact answered_misused (by decide) hparse s
  · split
    · exact answered_done
    · exact answered_refused
    · exact answered_done

theorem help_answered (r : Registry) (s : Session) (words : List String) :
    (help r s words).Answered := by
  unfold help
  split
  · exact answered_refused
  · cases words with
    | nil | cons =>
      simp only
      split
      · exact answered_refused
      · exact answered_done

theorem stack_answered (s : Session) : (stack s).Answered := by
  unfold stack
  split
  · exact answered_refused
  · exact answered_done

theorem info_answered_or (w : Surroundings) (s : Session) (words : List String) :
    (info s).Answered ∨ BrokenOff w s .info words := by
  cases he : s.engine with
  | none =>
    simp only [info, Session.needEngine, he]
    exact .inl answered_refused
  | some e =>
    simp only [info, Session.needEngine, he]
    split
    · exact .inl answered_done
    · rename_i hlong
      exact .inr (.infoLongSeed he (Bool.not_eq_true _ ▸ hlong))

/-- **An action other than `exit` and `continue` comes back or is broken off.** -/
theorem perform_answered_or {s : Session} (h : ∀ e, s.engine = some e → e.Steady) (fuel : Nat)
    (w : Surroundings) (r : Registry) (words : List String) {action : Action}
    (hexit : action ≠ .exit) (hresume : action ≠ .resume) (hmissing : action ≠ .missing) :
    (perform fuel w r s words action).Answered ∨ BrokenOff w s action words := by
  cases action with
  | load => exact load_answered_or w s words
  | reset => exact reset_answered_or w s words
  | breakpoints => exact breakpoints_answered_or w s words
  | listing => exact listing_answered_or w s words
  | step => exact .inl (step_answered h words)
  | aliases => exact .inl (aliases_answered s words)
  | help => exact .inl (help_answered r s words)
  | stack => exact .inl (stack_answered s)
  | info => exact info_answered_or w s words
  | exit => exact absurd rfl hexit
  | resume => exact absurd rfl hresume
  | missing => exact absurd rfl hmissing

/-! ### Enough time -/

/-- The reply comes with a status, if it is given enough time. -/
def ComesBack (reply : Nat → Reply) : Prop :=
  ∃ enough, ∀ fuel, enough ≤ fuel → (reply fuel).Answered

/-- A resumption that is not broken off moves the engine. -/
theorem goOn_of_engine {s : Session} {words : List String} {p : Parsed} {e : Engine}
    (hparse : parse resumeSpec words = .ok p) (he : s.engine = some e)
    (hblank : p.isBlank "max" = false) (fuel : Nat) :
    goOn fuel s words = moved s (resume fuel s.breakpoints (p.int? "max") e) := by
  simp [goOn, hparse, Session.needEngine, he, hblank]

/-- **`continue` comes back unless it is broken off or the program goes on for ever.** -/
theorem goOn_comes_back_iff {s : Session} (h : ∀ e, s.engine = some e → e.Steady)
    (w : Surroundings) (words : List String) :
    ComesBack (goOn · s words) ↔ ¬ BrokenOff w s .resume words ∧ ¬ RunsOn s .resume words := by
  constructor
  · rintro ⟨enough, hanswered⟩
    refine ⟨fun hbroken => ?_, ?_⟩
    · exact hbroken.not_answered enough registry (hanswered enough (Nat.le_refl _))
    · rintro ⟨-, p, e, hparse, hblank, hlimit, he, hendless⟩
      refine (resume_stops_iff (h e he)).1 ⟨enough, fun fuel hle => ?_⟩ ⟨hlimit, hendless⟩
      rw [← answered_moved_iff (s := s), ← goOn_of_engine hparse he hblank]
      exact hanswered fuel hle
  · rintro ⟨hbroken, hruns⟩
    cases hparse : parse resumeSpec words with
    | error refusal =>
      refine ⟨0, fun fuel _ => ?_⟩
      simp only [goOn, hparse]
      exact answered_misused (by decide) hparse s
    | ok p =>
      cases he : s.engine with
      | none =>
        refine ⟨0, fun fuel _ => ?_⟩
        simp only [goOn, hparse, Session.needEngine, he]
        exact answered_refused
      | some e =>
        have hblank : p.isBlank "max" = false :=
          eq_false_of_ne_true fun hblank => hbroken (.blankLimit hparse he hblank)
        have hends : ¬ (p.int? "max" = none ∧ Endless s.breakpoints e) := fun hforever =>
          hruns ⟨rfl, p, e, hparse, hblank, hforever.1, he, hforever.2⟩
        obtain ⟨enough, hstops⟩ := (resume_stops_iff (h e he)).2 hends
        refine ⟨enough, fun fuel hle => ?_⟩
        simp only [goOn_of_engine hparse he hblank, answered_moved_iff]
        exact hstops fuel hle

/-- **Which actions come back.** -/
theorem perform_comes_back_iff {s : Session} (h : ∀ e, s.engine = some e → e.Steady)
    (w : Surroundings) (r : Registry) (words : List String) {action : Action}
    (hmissing : action ≠ .missing) :
    ComesBack (perform · w r s words action) ↔
      action ≠ .exit ∧ ¬ BrokenOff w s action words ∧ ¬ RunsOn s action words := by
  by_cases hresume : action = .resume
  · subst hresume
    rw [and_iff_right (by decide)]
    exact goOn_comes_back_iff h w words
  · have hruns : ¬ RunsOn s action words := fun hruns => hresume hruns.1
    constructor
    · rintro ⟨enough, hanswered⟩
      have hback := hanswered enough (Nat.le_refl _)
      refine ⟨?_, fun hbroken => hbroken.not_answered enough r hback, hruns⟩
      rintro rfl
      simp [perform, Reply.Answered] at hback
    · rintro ⟨hexit, hbroken, -⟩
      refine ⟨0, fun fuel _ => ?_⟩
      exact (perform_answered_or h fuel w r words hexit hresume hmissing).resolve_right hbroken

/-! ### Lines -/

/-- A line that names no command comes back. -/
theorem answered_of_not_asked {fuel : Nat} {w : Surroundings} {r : Registry} {s : Session}
    {line : String} (h : asked r s line = none) : (dispatch fuel w r s line).Answered := by
  unfold asked at h
  unfold dispatch
  cases hline : commandWords (Text.strip line) with
  | nil => exact .inl rfl
  | cons word rest =>
    simp only [hline] at h
    split at h
    · rename_i hword
      simp only [if_pos hword]
      exact .inr rfl
    · rename_i hword
      simp only [if_neg hword, Option.map_eq_none_iff.1 h]
      exact .inr rfl

/-- Every command of the debugger has been provided for. -/
theorem asked_ne_missing {s : Session} {line : String} {action : Action} {words : List String}
    (h : asked registry s line = some (action, words)) : action ≠ .missing := by
  have hall : ∀ c ∈ registry.commands, c.action ≠ .missing := by decide
  unfold asked at h
  split at h
  · cases h
  · split at h
    · cases h
    · obtain ⟨command, hfind, hcommand⟩ := Option.map_eq_some_iff.1 h
      cases hcommand
      exact hall command (List.mem_reverse.1 (List.mem_of_find?_eq_some hfind))

/-- **Which lines come back to the prompt.** Take any session that lines can lead to from one without an
engine, in any surroundings. Of its port it is taken that no read is interrupted, be it by the user or by a
system that fails to give a byte; reads may run out of memory, and bytes that are put out get through on any
port. A line comes back with a status, 0 or 1, if it names no command, or if it asks for another action than
`exit` which is not broken off in one of the ways listed and does not resume a program that goes on for
ever. No other line does. -/
theorem comes_back_iff {s₀ : Session} (hfresh : s₀.engine = none) (entries : List Entry)
    (hport : ∀ port, (sessionAfter registry entries s₀).port? = some port → port.Uninterrupted)
    (w : Surroundings) (line : String) :
    ComesBack (dispatch · w registry (sessionAfter registry entries s₀) line) ↔
      ∀ action words,
        asked registry (sessionAfter registry entries s₀) line = some (action, words) →
        action ≠ .exit ∧ ¬ BrokenOff w (sessionAfter registry entries s₀) action words ∧
          ¬ RunsOn (sessionAfter registry entries s₀) action words := by
  have hplaced : s₀.Placed := fun e he => by rw [hfresh] at he; cases he
  have hplaced := sessionAfter_placed registry entries hplaced
  generalize sessionAfter registry entries s₀ = s at hport hplaced ⊢
  have hsteady : ∀ e, s.engine = some e → e.Steady := fun e he =>
    ⟨hplaced e he, hport e.port (by rw [Session.port?, he])⟩
  cases hasked : asked registry s line with
  | none =>
    refine iff_of_true ⟨0, fun fuel _ => answered_of_not_asked hasked⟩ ?_
    intro action words h
    cases h
  | some request =>
    obtain ⟨action, words⟩ := request
    have hiff := perform_comes_back_iff hsteady w registry words (asked_ne_missing hasked)
    simp only [ComesBack, dispatch_of_asked hasked] at hiff ⊢
    rw [hiff]
    constructor
    · intro hback action' words' h
      cases h
      exact hback
    · intro hall
      exact hall action words rfl

/-- A session in which a program is loaded. -/
def loadedIn : Session :=
  sessionAfter registry [loading] (freshSession (Port.ofBuffer []) false (.number 0))

/-- In a session with a program, a line that steps comes back, and one that asks a subcommand of `break`
for its help leaves the debugger. -/
theorem comes_back_iff_subcommand_help :
    ComesBack (dispatch · oneFile registry loadedIn "step 9") ∧
    ¬ ComesBack (dispatch · oneFile registry loadedIn "break add -h") ∧
    (dispatch 0 oneFile registry loadedIn "break add -h").ended = .exit 0 := by
  have hfaults : loadedIn.port?.map Port.faults = some [] := by decide +kernel
  have hport : ∀ port, loadedIn.port? = some port → port.Uninterrupted := by
    intro port hport
    rw [hport] at hfaults
    have hnone : port.faults = [] := Option.some.inj hfaults
    simp [Port.Uninterrupted, hnone]
  have hstep : asked registry loadedIn "step 9" = some (.step, ["9"]) := by decide +kernel
  have hhelp : asked registry loadedIn "break add -h" = some (.breakpoints, ["add", "-h"]) := by
    decide +kernel
  refine ⟨(comes_back_iff rfl [loading] hport oneFile "step 9").2 ?_, ?_, by decide +kernel⟩
  · intro action words h
    obtain ⟨rfl, rfl⟩ := Prod.mk.inj (Option.some.inj (hstep.symm.trans h))
    exact ⟨by decide, nofun, fun hruns => by cases hruns.1⟩
  · intro hback
    have hall := (comes_back_iff rfl [loading] hport oneFile "break add -h").1 hback
    have hended : (breakpoints loadedIn ["add", "-h"]).ended = .exit 0 := by decide +kernel
    have hbroken : BrokenOff oneFile loadedIn .breakpoints ["add", "-h"] :=
      (breakpoints_answered_or oneFile loadedIn ["add", "-h"]).resolve_left
        (by simp [Reply.Answered, hended])
    exact (hall _ _ hhelp).2.1 hbroken

end ChunkMachine.Debugger
