import ChunkMachine.Proofs.SessionStep

/-!
# Which chunks have breakpoints

A breakpoint should name a chunk of the program. This is tested in two places. Where a breakpoint is set
while a program is loaded, it must be at least 0 and below the number of chunks. Breakpoints that are
there when a program is loaded are tested for the second only: one that is negative stays. So a negative
breakpoint can get into a session in one way, by a line that sets it before any program is loaded, and
then no load removes it.

## What is proved

* `turns_bounded`, `mem_breakpoints_of_turns`: what one line does to the breakpoints.
* `mem_breakpoints_origin`: every breakpoint was set by some line, and a negative one while no program
  was loaded.
* `breakpoints_in_range`: with a program loaded, every breakpoint names a chunk of it, but for the
  negative ones that were set before.
-/

namespace ChunkMachine.Debugger

/-- Does the entry ask for a breakpoint at a chunk? -/
def Entry.Adds (r : Registry) (s : Session) (x : Entry) (b : Int) : Prop :=
  ∃ words, asked r s x.line = some (.breakpoints, words) ∧ breakRequest words = .ok (.add b)

/-- With a program loaded, no breakpoint is past its last chunk. -/
def Session.Bounded (s : Session) : Prop :=
  ∀ program, s.program = some program → ∀ b ∈ s.breakpoints, b < program.chunkCount

/-! ### Setting a breakpoint -/

theorem mem_insertSorted {b i : Int} {l : List Int} :
    b ∈ Session.insertSorted i l ↔ b = i ∨ b ∈ l := by
  induction l with
  | nil => simp [Session.insertSorted]
  | cons j l ih =>
    rw [Session.insertSorted]
    split
    · simp
    · split
      · rename_i hij
        simp [hij]
      · rw [List.mem_cons, ih, List.mem_cons]
        exact or_left_comm

/-- What a breakpoint that was set adds, and what is known of it. -/
theorem addBreakpoint_eq_ok {s s' : Session} {i : Int} (h : s.addBreakpoint i = .ok s') :
    s' = { s with breakpoints := Session.insertSorted i s.breakpoints } ∧
      ∀ program, s.program = some program → 0 ≤ i ∧ i < program.chunkCount := by
  unfold Session.addBreakpoint at h
  simp only at h
  split at h
  · rename_i hprogram
    cases h
    exact ⟨rfl, fun program hp => by rw [hprogram] at hp; cases hp⟩
  · rename_i program hprogram
    split at h
    · rename_i hrange
      cases h
      refine ⟨rfl, fun program' hp => ?_⟩
      rw [hprogram] at hp
      cases hp
      exact hrange
    · cases h

/-! ### One line -/

theorem adopt_bounded (s : Session) (path : Path) (program : Program) :
    (s.adopt path program).Bounded := by
  intro program' hp b hb
  cases hp
  exact of_decide_eq_true (List.mem_filter.1 hb).2

/-- **A line keeps the breakpoints below the number of chunks.** -/
theorem turns_bounded {r : Registry} {s s' : Session} {x : Entry} (h : Turns r s x s')
    (hs : s.Bounded) : s'.Bounded := by
  cases h with
  | same | renamed => exact hs
  | moved he hreach =>
    intro program hprogram b hb
    rw [program_moved he hreach] at hprogram
    exact hs program hprogram b hb
  | uncovered =>
    intro program hprogram b hb
    rw [Session.program_resetVisited] at hprogram
    rw [Session.resetVisited_eq] at hb
    exact hs program hprogram b hb
  | added _ _ hadd =>
    obtain ⟨rfl, hrange⟩ := addBreakpoint_eq_ok hadd
    intro program hprogram b hb
    rcases mem_insertSorted.1 hb with rfl | hb
    · exact (hrange program hprogram).2
    · exact hs program hprogram b hb
  | cleared hb => exact fun program hprogram b hmem => hs program hprogram b (hb b hmem)
  | @loaded path program _ _ hreset =>
    obtain ⟨_, _, _, hprogram, -, -, rfl, rfl⟩ := reset_eq_ok hreset
    exact fun program' h => adopt_bounded s path program program' (hprogram.trans h)
  | adopted path program => exact adopt_bounded s path program
  | restarted hreset =>
    obtain ⟨_, _, _, hprogram, -, -, rfl, rfl⟩ := reset_eq_ok hreset
    exact fun program' h => hs program' (hprogram.trans h)

/-- A breakpoint after a line was there before or was set by the line, and in the second case it is
negative only if no program was loaded. -/
theorem mem_breakpoints_of_turns {r : Registry} {s s' : Session} {x : Entry} (h : Turns r s x s')
    {b : Int} (hb : b ∈ s'.breakpoints) :
    b ∈ s.breakpoints ∨ x.Adds r s b ∧ (0 ≤ b ∨ s.program = none) := by
  cases h with
  | same | renamed | moved => exact .inl hb
  | uncovered =>
    rw [Session.resetVisited_eq] at hb
    exact .inl hb
  | added hasked hrequest hadd =>
    obtain ⟨rfl, hrange⟩ := addBreakpoint_eq_ok hadd
    rcases mem_insertSorted.1 hb with rfl | hb
    · refine .inr ⟨⟨_, hasked, hrequest⟩, ?_⟩
      cases hprogram : s.program with
      | none => exact .inr rfl
      | some program => exact .inl (hrange program hprogram).1
    · exact .inl hb
  | cleared hkept => exact .inl (hkept b hb)
  | loaded hreset =>
    obtain ⟨_, _, _, -, -, -, -, rfl⟩ := reset_eq_ok hreset
    exact .inl (List.mem_filter.1 hb).1
  | adopted => exact .inl (List.mem_filter.1 hb).1
  | restarted hreset =>
    obtain ⟨_, _, _, -, -, -, -, rfl⟩ := reset_eq_ok hreset
    exact .inl hb

/-! ### Any lines -/

/-- **Every breakpoint was set by some line**, and a negative one by a line before any program was
loaded, unless it was there from the start. -/
theorem mem_breakpoints_origin (r : Registry) (entries : List Entry) :
    ∀ {s : Session} {b : Int}, b ∈ (sessionAfter r entries s).breakpoints →
      b ∈ s.breakpoints ∨ ∃ before x after, entries = before ++ x :: after ∧
        x.Adds r (sessionAfter r before s) b ∧
        (0 ≤ b ∨ (sessionAfter r before s).program = none) := by
  induction entries with
  | nil => intro s b hb; exact .inl hb
  | cons first rest ih =>
    intro s b hb
    rcases ih hb with hb | ⟨before, x, after, rfl, hadds, hsign⟩
    · rcases mem_breakpoints_of_turns (reply_turns r s first) hb with hb | ⟨hadds, hsign⟩
      · exact .inl hb
      · exact .inr ⟨[], first, rest, rfl, hadds, hsign⟩
    · exact .inr ⟨first :: before, x, after, rfl, hadds, hsign⟩

/-- **Every breakpoint names a chunk of the loaded program, unless it is negative and was set before any
program was loaded.** Take any lines from a session without breakpoints on, in any surroundings. If a
program is loaded in the end, every breakpoint is below its number of chunks; and it is at least 0, or
else one of the lines asked for just this breakpoint when no program was loaded. -/
theorem breakpoints_in_range (r : Registry) {s : Session} (hnone : s.breakpoints = [])
    (entries : List Entry) {program : Program}
    (hloaded : (sessionAfter r entries s).program = some program) :
    ∀ b ∈ (sessionAfter r entries s).breakpoints,
      b < program.chunkCount ∧
        (0 ≤ b ∨ ∃ before x after, entries = before ++ x :: after ∧
          (sessionAfter r before s).program = none ∧ x.Adds r (sessionAfter r before s) b) := by
  have hstart : s.Bounded := fun _ _ b hb => by rw [hnone] at hb; cases hb
  intro b hb
  refine ⟨sessionAfter_keeps turns_bounded entries hstart program hloaded b hb, ?_⟩
  rcases mem_breakpoints_origin r entries hb with hb | ⟨before, x, after, hsplit, hadds, hsign⟩
  · rw [hnone] at hb
    cases hb
  · rcases hsign with hsign | hsign
    · exact .inl hsign
    · exact .inr ⟨before, x, after, hsplit, hsign, hadds⟩

/-- Lines that set three breakpoints and then load a program of two chunks. -/
def settingEarly : List Entry :=
  ["break add -1", "break add 1", "break add 2", "load p"].map (⟨·, oneFile, 0⟩)

/-- The session in which they are entered. -/
def settingIn : Session := freshSession (Port.ofBuffer []) false (.number 0)

/-- The load drops the breakpoint past the last chunk and keeps the negative one, which a line had set
when no program was loaded. -/
theorem breakpoints_in_range_negative :
    settingIn.breakpoints = [] ∧
    (sessionAfter registry settingEarly settingIn).breakpoints = [-1, 1] ∧
    ∃ program, (sessionAfter registry settingEarly settingIn).program = some program ∧
      program.chunkCount = 2 ∧
      ∃ before x after, settingEarly = before ++ x :: after ∧
        (sessionAfter registry before settingIn).program = none ∧
        x.Adds registry (sessionAfter registry before settingIn) (-1) := by
  have hbreakpoints : (sessionAfter registry settingEarly settingIn).breakpoints = [-1, 1] := by
    decide +kernel
  have hcount : (sessionAfter registry settingEarly settingIn).program.map Program.chunkCount =
      some 2 := by decide +kernel
  obtain ⟨program, hloaded, hcount⟩ := Option.map_eq_some_iff.1 hcount
  refine ⟨rfl, hbreakpoints, program, hloaded, hcount, ?_⟩
  obtain ⟨-, hsign | horigin⟩ := breakpoints_in_range registry rfl settingEarly hloaded (-1)
    (by rw [hbreakpoints]; decide)
  · exact absurd hsign (by decide)
  · exact horigin

end ChunkMachine.Debugger
