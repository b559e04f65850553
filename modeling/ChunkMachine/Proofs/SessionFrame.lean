import ChunkMachine.Debugger.Dispatch

/-!
# What a command line changes

A command line asks for an action with some arguments, or names no command. `asked` is that request,
and `dispatch_of_asked` and `dispatch_of_not_asked` say that a line does what its request does.

For each action a lemma says which parts of the session it can change. The actions fall into three
kinds: those that load or restart a program, those that move the engine, and the rest, which change
breakpoints and aliases at most (`perform_frame`).
-/

namespace ChunkMachine.Debugger

open Options

/-! ### Requests -/

/-- The action that a line asks for and its arguments; `none` if the line names no command. -/
def asked (r : Registry) (s : Session) (line : String) : Option (Action × List String) :=
  match commandWords (Text.strip line) with
  | [] => none
  | word :: words =>
    if word = parseErrorWord then none
    else (r.find? (s.resolve word)).map fun command => (command.action, words)

/-- Of the session, a request depends on the aliases alone. -/
theorem asked_congr {s s' : Session} (h : s.aliases = s'.aliases) (r : Registry) (line : String) :
    asked r s line = asked r s' line := by
  simp only [asked, Session.resolve, h]

theorem dispatch_of_asked {fuel : Nat} {w : Surroundings} {r : Registry} {s : Session}
    {line : String} {action : Action} {words : List String}
    (h : asked r s line = some (action, words)) :
    dispatch fuel w r s line = perform fuel w r s words action := by
  unfold asked at h
  unfold dispatch
  cases hline : commandWords (Text.strip line) with
  | nil => simp [hline] at h
  | cons word rest =>
    simp only [hline] at h
    split at h
    · cases h
    · rename_i hword
      obtain ⟨command, hfind, hcommand⟩ := Option.map_eq_some_iff.1 h
      simp only [Prod.mk.injEq] at hcommand
      simp only [if_neg hword, hfind, hcommand.1, hcommand.2]

/-- A line that names no command changes nothing. -/
theorem dispatch_of_not_asked {fuel : Nat} {w : Surroundings} {r : Registry} {s : Session}
    {line : String} (h : asked r s line = none) : (dispatch fuel w r s line).session = s := by
  unfold asked at h
  unfold dispatch
  cases hline : commandWords (Text.strip line) with
  | nil => rfl
  | cons word rest =>
    simp only [hline] at h
    split at h
    · rename_i hword
      simp only [if_pos hword]
      rfl
    · rename_i hword
      simp only [if_neg hword, Option.map_eq_none_iff.1 h]
      rfl

/-! ### Replies -/

section Replies

variable (s : Session)

@[simp] theorem session_done (message : String) (data : Document) :
    (Reply.done s message data).session = s := rfl

@[simp] theorem session_refused (message : String) : (Reply.refused s message).session = s := rfl

@[simp] theorem session_escaped (escape : Escape) : (Reply.escaped s escape).session = s := rfl

@[simp] theorem session_failed (fault : SessionFault) : (Reply.failed s fault).session = s := by
  cases fault <;> rfl

@[simp] theorem session_misused (spec : Spec) (refusal : Refusal) :
    (Reply.misused s spec refusal).session = s := by
  cases refusal <;> rfl

@[simp] theorem session_writing (numbers : List Int) (reply : Reply) :
    (Reply.writing numbers reply).session = reply.session := by
  unfold Reply.writing
  split <;> rfl

/-- A command that is not given its arguments does not succeed. -/
theorem ended_misused (spec : Spec) (refusal : Refusal) :
    (Reply.misused s spec refusal).ended ≠ .status 0 := by
  cases refusal <;> simp [Reply.misused, Reply.refused]

/-- A command that the session cannot carry out does not succeed. -/
theorem ended_failed (fault : SessionFault) : (Reply.failed s fault).ended ≠ .status 0 := by
  cases fault <;> simp [Reply.failed, Reply.refused, Reply.escaped]

end Replies

/-! ### Actions that leave the engine alone -/

@[simp] theorem stack_session (s : Session) : (stack s).session = s := by
  unfold stack
  split <;> simp

@[simp] theorem info_session (s : Session) : (info s).session = s := by
  unfold info
  split
  · simp
  · split <;> rfl

@[simp] theorem listing_session (s : Session) (words : List String) :
    (listing s words).session = s := by
  unfold listing
  split
  · simp
  · split
    · simp
    · simp only
      split <;> simp

@[simp] theorem help_session (r : Registry) (s : Session) (words : List String) :
    (help r s words).session = s := by
  unfold help
  split
  · simp
  · simp only
    split <;> split <;> rfl

theorem addBreakpoint_session {s s' : Session} {index : Int}
    (h : s.addBreakpoint index = .ok s') : ∃ b, s' = { s with breakpoints := b } := by
  unfold Session.addBreakpoint at h
  simp only at h
  split at h
  · cases h
    exact ⟨_, rfl⟩
  · split at h
    · cases h
      exact ⟨_, rfl⟩
    · cases h

theorem clearBreakpoint_session {s s' : Session} {index : Int}
    (h : s.clearBreakpoint index = some s') : ∃ b, s' = { s with breakpoints := b } := by
  unfold Session.clearBreakpoint at h
  split at h
  · cases h
    exact ⟨_, rfl⟩
  · cases h

theorem breakpoints_session (s : Session) (words : List String) :
    ∃ b, (breakpoints s words).session = { s with breakpoints := b } := by
  unfold breakpoints
  split
  · exact ⟨s.breakpoints, by simp⟩
  · split
    · exact ⟨s.breakpoints, by simp⟩
    · rename_i s' hadd
      obtain ⟨b, rfl⟩ := addBreakpoint_session hadd
      exact ⟨b, by simp⟩
  · split
    · exact ⟨s.breakpoints, by simp⟩
    · rename_i s' hclear
      obtain ⟨b, rfl⟩ := clearBreakpoint_session hclear
      exact ⟨b, by simp⟩
  · exact ⟨[], by simp⟩
  · exact ⟨s.breakpoints, by simp⟩

theorem aliases_session (s : Session) (words : List String) :
    ∃ a, (aliases s words).session = { s with aliases := a } := by
  unfold aliases
  split
  · exact ⟨s.aliases, by simp⟩
  · split
    · exact ⟨s.aliases, by simp⟩
    · exact ⟨s.aliases, by simp⟩
    · exact ⟨_, rfl⟩

/-- Can an action touch the engine? -/
def Action.touchesEngine : Action → Bool
  | .load | .reset | .step | .resume => true
  | _ => false

/-- **Frame**: an action that cannot touch the engine changes breakpoints and aliases at most. -/
theorem perform_frame (fuel : Nat) (w : Surroundings) (r : Registry) (s : Session)
    (words : List String) (action : Action) (h : action.touchesEngine = false) :
    ∃ b a, (perform fuel w r s words action).session = { s with breakpoints := b, aliases := a } := by
  cases action with
  | load | reset | step | resume => cases h
  | breakpoints =>
    obtain ⟨b, hb⟩ := breakpoints_session s words
    exact ⟨b, s.aliases, hb⟩
  | aliases =>
    obtain ⟨a, ha⟩ := aliases_session s words
    exact ⟨s.breakpoints, a, ha⟩
  | help | stack | info | listing => exact ⟨s.breakpoints, s.aliases, by simp [perform]⟩
  | exit | missing => exact ⟨s.breakpoints, s.aliases, rfl⟩

/-! ### Loading -/

/-- What a fresh engine for the loaded program is started from. -/
theorem reset_eq_ok {clock : Int} {s s' : Session} {e : Engine} (h : s.reset clock = .ok (s', e)) :
    ∃ program port n, s.program = some program ∧ s.port? = some port ∧
      s.seed.value clock = .ok n ∧ e = Engine.start program port n false ∧ s' = s.withEngine e := by
  unfold Session.reset at h
  split at h
  · cases h
  · cases h
  · rename_i program port hprogram hport
    split at h
    · cases h
    · rename_i n hseed
      cases h
      exact ⟨program, port, n, hprogram, hport, hseed, rfl, rfl⟩

/-- A session with a program, a port and a seed can be restarted. -/
theorem reset_of_loaded {clock n : Int} {s : Session} {program : Program} {port : Port}
    (hprogram : s.program = some program) (hport : s.port? = some port)
    (hseed : s.seed.value clock = .ok n) :
    s.reset clock =
      .ok (s.withEngine (.start program port n false), .start program port n false) := by
  simp [Session.reset, hprogram, hport, hseed]

/-- A session that is not restarted has no program, no port or no seed. -/
theorem reset_eq_error {clock : Int} {s : Session} {fault : SessionFault}
    (h : s.reset clock = .error fault) :
    fault = .noProgram ∧ s.program = none ∨ fault = .noPort ∧ s.port? = none ∨
      fault = .escape .blankSeed ∧ s.seed = .blank ∧ ∃ program port,
        s.program = some program ∧ s.port? = some port := by
  unfold Session.reset at h
  split at h
  · rename_i hprogram
    cases h
    exact .inl ⟨rfl, hprogram⟩
  · rename_i hport
    cases h
    exact .inr (.inl ⟨rfl, hport⟩)
  · rename_i program port hprogram hport
    cases hseed : s.seed with
    | clock | number => simp [hseed, Seed.value] at h
    | blank =>
      simp only [hseed, Seed.value] at h
      cases h
      exact .inr (.inr ⟨rfl, rfl, program, port, hprogram, hport⟩)

/-- A line that loads a program either succeeds, and then the session holds the program of a file and
a fresh engine for it; or it changes nothing; or it takes over a program that cannot be started. -/
theorem load_cases (w : Surroundings) (s : Session) (words : List String) :
    (∃ path program s' e, w.files.loadProgram path = .ok program ∧
        (s.adopt path program).reset w.clock = .ok (s', e) ∧
        (load w s words).session = s' ∧ (load w s words).ended = .status 0) ∨
      ((load w s words).session = s ∧ (load w s words).ended ≠ .status 0) ∨
      ∃ path program fault, (s.adopt path program).reset w.clock = .error fault ∧
        (load w s words).session = s.adopt path program ∧ (load w s words).ended ≠ .status 0 := by
  unfold load
  split
  · exact .inr (.inl ⟨by simp, ended_misused s _ _⟩)
  · simp only
    split
    · exact .inr (.inl ⟨by simp, by simp [Reply.escaped]⟩)
    · rename_i path hpath
      split
      · exact .inr (.inl ⟨by simp, by simp [Reply.escaped]⟩)
      · exact .inr (.inl ⟨by simp, by simp [Reply.refused]⟩)
      · rename_i program hprogram
        split
        · rename_i fault hreset
          exact .inr (.inr ⟨path, program, fault, hreset, by simp, ended_failed _ _⟩)
        · rename_i s' e hreset
          exact .inl ⟨path, program, s', e, hprogram, hreset, rfl, rfl⟩

/-- A load that succeeds leaves a fresh engine for the program of a file, on the port that the session
had. -/
theorem load_succeeds {w : Surroundings} {s : Session} {words : List String} {port : Port}
    (hport : s.port? = some port) (h : (load w s words).ended = .status 0) :
    ∃ path program n, w.files.loadProgram path = .ok program ∧ s.seed.value w.clock = .ok n ∧
      (load w s words).session =
        (s.adopt path program).withEngine (.start program port n false) := by
  rcases load_cases w s words with ⟨path, program, s', e, hfile, hreset, hsession, -⟩ | ⟨-, hne⟩ |
    ⟨-, -, -, -, -, hne⟩
  · obtain ⟨program', port', n, hprogram, hport', hseed, rfl, rfl⟩ := reset_eq_ok hreset
    have hp : program = program' := Option.some.inj hprogram
    have hq : port = port' := Option.some.inj (hport.symm.trans hport')
    subst hp hq
    exact ⟨path, program, n, hfile, hseed, hsession⟩
  · exact absurd h hne
  · exact absurd h hne

/-- A load that does not succeed changes nothing, if the session has a port and a seed. -/
theorem load_fails {w : Surroundings} {s : Session} {words : List String} {port : Port} {n : Int}
    (hport : s.port? = some port) (hseed : s.seed.value w.clock = .ok n)
    (h : (load w s words).ended ≠ .status 0) : (load w s words).session = s := by
  rcases load_cases w s words with ⟨-, -, -, -, -, -, -, hend⟩ | ⟨hsession, -⟩ |
    ⟨path, program, fault, hreset, -, -⟩
  · exact absurd hend h
  · exact hsession
  · have hok : (s.adopt path program).reset w.clock = .ok _ := reset_of_loaded rfl hport hseed
    rw [hreset] at hok
    cases hok

/-! ### Moving the engine -/

@[simp] theorem moved_session (s : Session) (m : Move) :
    (moved s m).session = { s with engine := some m.engine } := by
  unfold moved
  simp only
  split <;> rfl

/-- The engine that a `step` line leaves. -/
def steppedEngine (words : List String) (e : Engine) : Engine :=
  match parse stepSpec words with
  | .error _ => e
  | .ok p => (stepMany (max 1 ((p.int? "count").getD 1)).toNat e).engine

/-- The engine that a `continue` line leaves. -/
def resumedEngine (fuel : Nat) (breakpoints : List Int) (words : List String) (e : Engine) : Engine :=
  match parse resumeSpec words with
  | .error _ => e
  | .ok p => if p.isBlank "max" then e else (resume fuel breakpoints (p.int? "max") e).engine

theorem step_session {s : Session} {e : Engine} (he : s.engine = some e) (words : List String) :
    (step s words).session = { s with engine := some (steppedEngine words e) } := by
  unfold step steppedEngine
  cases parse stepSpec words with
  | error refusal => simp [← he]
  | ok p => simp [Session.needEngine, he]

theorem goOn_session {s : Session} {e : Engine} (he : s.engine = some e) (fuel : Nat)
    (words : List String) :
    (goOn fuel s words).session =
      { s with engine := some (resumedEngine fuel s.breakpoints words e) } := by
  unfold goOn resumedEngine
  cases parse resumeSpec words with
  | error refusal => simp [← he]
  | ok p =>
    simp only [Session.needEngine, he]
    split <;> simp [← he]

end ChunkMachine.Debugger
