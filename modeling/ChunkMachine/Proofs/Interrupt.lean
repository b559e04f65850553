import ChunkMachine.Debugger.Prompt
import ChunkMachine.Proofs.Returns

/-!
# What an interrupt leaves behind

The user may interrupt a read. This breaks the chunk off, the prompt takes note of it and goes on, and
the program can be resumed. To be resumed as if nothing had happened, it would have to stand where it
stood before the chunk.

In part it does: the engine still runs, stands on the same chunk, and has neither counted nor marked it.
But what the slots before the read did stays done, and a resumption executes them once more. Only where
they changed nothing is the engine left at the boundary of the chunk, and then a resumption leads to
just what it would have led to without the interrupt.

## What is proved

* `perform_faults`, `step_faults`, `after_faults`: reads that work bring the next planned fault closer,
  each by one.
* `step_interrupted`: a step that is interrupted performed the slots before a read and nothing else.
* `resume_unharmed`: an interrupt that comes before any change can be undone by going on.
* `enter_interrupted`: all of this for an interrupted line at the prompt.
-/

namespace ChunkMachine

/-! ### Planned faults -/

namespace Port

/-- Planned faults, of which the first comes `d` reads later. -/
def delayed (d : Nat) : List (Nat × ReadFault) → List (Nat × ReadFault)
  | [] => []
  | (n, fault) :: rest => (n + d, fault) :: rest

@[simp] theorem delayed_zero (faults : List (Nat × ReadFault)) : delayed 0 faults = faults := by
  rcases faults with _ | ⟨⟨n, fault⟩, rest⟩ <;> rfl

theorem delayed_delayed (a b : Nat) (faults : List (Nat × ReadFault)) :
    delayed a (delayed b faults) = delayed (a + b) faults := by
  rcases faults with _ | ⟨⟨n, fault⟩, rest⟩
  · rfl
  · simp only [delayed, Nat.add_assoc, Nat.add_comm b a]

/-- The port with its first planned fault left out. The others come after the same number of reads that
work. -/
def spared (p : Port) : Port :=
  match p.faults with
  | [] => p
  | (n, _) :: rest => { p with faults := delayed n rest }

theorem spared_of_faults {p : Port} {n : Nat} {fault : ReadFault} {rest : List (Nat × ReadFault)}
    (h : p.faults = (n, fault) :: rest) : p.spared = { p with faults := delayed n rest } := by
  rw [spared, h]

/-- A read that works brings the next fault closer. -/
theorem faults_of_read {p : Port} {b : Option UInt8} (h : p.read.1 = .ok b) :
    p.faults = delayed 1 p.read.2.faults := by
  rcases p with ⟨endpoint, _ | ⟨⟨_ | n, fault⟩, rest⟩⟩
  · rfl
  · cases h
  · rfl

/-- A read that fails was planned to fail next, and takes nothing but the plan. -/
theorem faults_of_failed_read {p : Port} {fault : ReadFault} (h : p.read.1 = .error fault) :
    ∃ rest, p.faults = (0, fault) :: rest ∧ p.read.2 = { p with faults := rest } := by
  rcases p with ⟨endpoint, _ | ⟨⟨_ | n, fault'⟩, rest⟩⟩
  · cases h
  · cases h
    exact ⟨rest, rfl, rfl⟩
  · cases h

/-- A port whose next fault does not come within `left` reads, and the port without this fault. -/
def Reprieved (left : Nat) (p q : Port) : Prop :=
  ∃ n fault rest, left ≤ n ∧ p.faults = (n, fault) :: rest ∧ q = p.spared

/-- A fault is not seen by the reads before it. -/
theorem reprieved_rationed : Rationed Reprieved where
  read := by
    rintro left ⟨endpoint, _⟩ q ⟨n, fault, rest, hleft, rfl, rfl⟩
    obtain ⟨n, rfl⟩ : ∃ n', n = n' + 1 := ⟨n - 1, by omega⟩
    refine ⟨?_, n, fault, rest, Nat.le_of_succ_le_succ hleft, rfl, ?_⟩ <;>
      rcases rest with _ | ⟨⟨k, fault'⟩, rest⟩ <;> rfl
  write := by
    rintro left p q w ⟨n, fault, rest, hleft, hfaults, rfl⟩
    refine ⟨n, fault, rest, hleft, hfaults, ?_⟩
    rw [spared_of_faults hfaults, spared_of_faults (p := p.write w) hfaults]
    rfl

end Port

/-! ### Reads of a chunk -/

theorem onStack_faults {m m' : Machine} {result : Except Underflow Stack}
    (h : m.onStack result = (m', none)) : m.port.faults = m'.port.faults := by
  cases result with
  | error u => cases h
  | ok stack =>
    cases h
    rfl

/-- Only a read brings the next fault closer. -/
theorem act_faults {op : Opcode} {m m' : Machine} (h : op.act m = (m', none)) :
    m.port.faults = Port.delayed (if op = .read then 1 else 0) m'.port.faults := by
  cases op with
  | read =>
    simp only [Opcode.act, Machine.readByte] at h
    rcases hread : m.port.read with ⟨fault | b, port⟩
    · simp [hread] at h
    · simp only [hread, Prod.mk.injEq, and_true] at h
      have hfaults := Port.faults_of_read (p := m.port) (congrArg Prod.fst hread)
      rw [hread] at hfaults
      rw [← h]
      exact hfaults
  | write =>
    simp only [Opcode.act, Machine.writeByte] at h
    rcases hpop : Stack.popFor .output m.stack with u | ⟨w, stack⟩
    · simp [hpop] at h
    · simp only [hpop, Prod.mk.injEq, and_true] at h
      rw [← h]
      exact (Port.delayed_zero _).symm
  | drop | dup | swap | inc | dec | add | rot | diff =>
    rw [onStack_faults h]
    exact (Port.delayed_zero _).symm
  | shuf | skipNew | skipOld | ret | halt | nop =>
    cases h
    exact (Port.delayed_zero _).symm

/-- Slots that do not fail bring the next fault closer by the reads among them. -/
theorem perform_faults (c : Chunk) (slots : List Nat) :
    ∀ {m m' : Machine}, c.perform slots m = (m', none) →
      m.port.faults = Port.delayed (c.readsIn slots) m'.port.faults := by
  induction slots with
  | nil =>
    intro m m' h
    cases h
    exact (Port.delayed_zero _).symm
  | cons slot slots ih =>
    intro m m' h
    rcases hact : (c.opcode slot).act m with ⟨m₁, _ | trouble⟩
    · simp only [Chunk.perform, hact] at h
      rw [act_faults hact, ih h, Port.delayed_delayed, Nat.add_comm]
      simp only [Chunk.readsIn, List.countP_cons, decide_eq_true_eq]
    · simp [Chunk.perform, hact] at h

/-- Slots that do not fail are all entered. -/
theorem entered_of_perform (c : Chunk) (slots : List Nat) :
    ∀ {m m' : Machine}, c.perform slots m = (m', none) → c.entered slots m = slots := by
  induction slots with
  | nil => intro m m' _; rfl
  | cons slot slots ih =>
    intro m m' h
    rcases hact : (c.opcode slot).act m with ⟨m₁, _ | trouble⟩
    · simp only [Chunk.perform, hact] at h
      simp only [Chunk.entered, hact, ih h]
    · simp [Chunk.perform, hact] at h

namespace Engine

/-! ### Reads of a run -/

/-- A chunk that comes to its end performed all its slots. -/
theorem perform_of_execution {e : Engine} {c : Chunk} {ending : Ending}
    (h : (e.execution c).result = .ok ending) :
    c.perform (c.plan e.flag).slots e.machine = ((e.execution c).machine, none) := by
  unfold execution at h ⊢
  rw [execute_eq_follow, Plan.follow] at h ⊢
  rcases hperform : c.perform (c.plan e.flag).slots e.machine with ⟨m, _ | ⟨slot, trouble⟩⟩
  · rfl
  · rw [hperform] at h
    cases h

/-- A step that comes to its end brings the next fault closer by its reads. -/
theorem step_faults {e : Engine} (h : e.step.2 = none) :
    e.port.faults = Port.delayed e.reads e.next.port.faults := by
  by_cases hrun : e.status = .running
  · cases hc : e.code.chunk e.current with
    | error missing => simp [step, running_iff.2 hrun, hc] at h
    | ok c =>
      have hended : ∀ {ending}, (e.execution c).result = .ok ending →
          e.port.faults = Port.delayed e.reads (e.execution c).machine.port.faults := by
        intro ending hresult
        have hperform := perform_of_execution hresult
        rw [reads_of_running hrun hc, entered_of_perform c _ hperform]
        exact perform_faults c _ hperform
      unfold next
      rcases hs : e.step with ⟨e', abort⟩
      rw [hs] at h
      cases h
      cases step_exits hrun hc hs with
      | halted trace hresult => exact hended hresult
      | moved trace hresult => exact hended hresult
  · have hreads : e.reads = 0 := by
      unfold reads
      split
      · rename_i hstatus _
        exact absurd hstatus hrun
      · rfl
    rw [next_of_not_running hrun, hreads, Port.delayed_zero]

/-- The first `k` steps come to their ends. -/
def Smooth (e : Engine) (k : Nat) : Prop := ∀ j < k, (e.after j).step.2 = none

theorem smooth_succ_iff {e : Engine} {k : Nat} :
    e.Smooth (k + 1) ↔ e.step.2 = none ∧ e.next.Smooth k := by
  constructor
  · intro h
    refine ⟨h 0 (Nat.succ_pos k), fun j hj => ?_⟩
    rw [← after_succ_next]
    exact h (j + 1) (Nat.succ_lt_succ hj)
  · rintro ⟨hfirst, hrest⟩ j hj
    cases j with
    | zero => exact hfirst
    | succ j =>
      rw [after_succ_next]
      exact hrest j (Nat.lt_of_succ_lt_succ hj)

/-- Steps that come to their ends bring the next fault closer by their reads. -/
theorem after_faults (k : Nat) : ∀ {e : Engine}, e.Smooth k →
    e.port.faults = Port.delayed (e.readsWithin k) (e.after k).port.faults := by
  induction k with
  | zero => intro e _; exact (Port.delayed_zero _).symm
  | succ k ih =>
    intro e h
    obtain ⟨hfirst, hrest⟩ := smooth_succ_iff.1 h
    rw [step_faults hfirst, ih hrest, Port.delayed_delayed, after_succ_next, readsWithin]

/-! ### An interrupted step -/

/-- The current chunk is `c`, the slots `before` of its plan lead to the machine `m`, and the read in the
slot after them is interrupted. -/
structure InterruptedIn (e : Engine) (c : Chunk) (before : List Nat) (m : Machine) : Prop where
  running : e.status = .running
  chunk : e.code.chunk e.current = .ok c
  planned : ∃ slot rest, (c.plan e.flag).slots = before ++ slot :: rest ∧ c.opcode slot = .read
  performed : c.perform before e.machine = (m, none)
  read : m.port.read.1 = .error .interrupted

/-- The engine with its chunk broken off by a failed read of a machine. -/
def brokenOff (e : Engine) (m : Machine) : Engine :=
  { e with machine := { m with port := m.port.read.2 } }

/-- **An interrupted step performed the slots before a read and nothing else.** -/
theorem step_interrupted {e : Engine} (h : e.step.2 = some .interrupted) :
    ∃ c before m, e.InterruptedIn c before m ∧ e.next.Like Port.FlushAlike (e.brokenOff m) := by
  by_cases hrun : e.status = .running
  · cases hc : e.code.chunk e.current with
    | error missing => simp [step, running_iff.2 hrun, hc] at h
    | ok c =>
      unfold next
      rcases hs : e.step with ⟨e', abort⟩
      rw [hs] at h
      cases h
      cases step_exits hrun hc hs with
      | interrupted trace hresult =>
        have hmachine : (e.executed c trace).machine = (e.execution c).machine := rfl
        unfold execution at hresult hmachine
        rw [execute_eq_follow, Plan.follow] at hresult hmachine
        rcases hperform : c.perform (c.plan e.flag).slots e.machine with ⟨m', _ | ⟨slot, trouble⟩⟩
        · rw [hperform] at hresult
          cases hresult
        · rw [hperform] at hresult hmachine
          cases hresult
          obtain ⟨before, rest, m, hslots, hbefore, hact⟩ := perform_failed hperform
          rcases act_trouble hact with ⟨u, hu, -⟩ | ⟨fault, hfault, hop, hread, rfl⟩
          · cases hu
          · cases hfault
            refine ⟨c, before, m, ⟨hrun, hc, ⟨slot, rest, hslots, hop⟩, hbefore, hread⟩,
              rfl, ?_, rfl, rfl, rfl⟩
            rw [hmachine]
            exact ⟨rfl, rfl, rfl⟩
  · rw [step_of_not_running hrun] at h
    cases h

/-! ### Going on after an interrupt -/

/-- Steps before a fault are those of the engine that is spared the fault. -/
theorem after_spared {e : Engine} {k n : Nat} {fault : ReadFault} {rest : List (Nat × ReadFault)}
    (h : e.Smooth k) (hfaults : (e.after k).port.faults = (n, fault) :: rest) :
    (e.after k).Like (Port.Reprieved 0) ((e.mapPort Port.spared).after k) := by
  refine after_within Port.reprieved_rationed k ⟨rfl, ⟨rfl, rfl, ?_⟩, rfl, rfl, rfl⟩
  refine ⟨n + e.readsWithin k, fault, rest, by omega, ?_, rfl⟩
  have hplan := after_faults k h
  rwa [hfaults] at hplan

/-- **An interrupt that comes before any change is undone by going on.** -/
theorem resume_unharmed {e : Engine} {k : Nat} {c : Chunk} {before : List Nat} {m : Machine}
    (hsmooth : e.Smooth k) (h : (e.after k).InterruptedIn c before m)
    (hm : m = (e.after k).machine) :
    ((e.after k).brokenOff m).Like Port.FlushAlike ((e.mapPort Port.spared).after k) := by
  subst hm
  obtain ⟨rest, hfaults, hread⟩ := Port.faults_of_failed_read h.read
  have hlike := after_spared hsmooth hfaults
  obtain ⟨n, fault, rest', -, hfaults', hport⟩ := hlike.machine.port
  have hspared := Port.spared_of_faults hfaults
  refine ⟨hlike.code, ⟨hlike.machine.stack, hlike.machine.generator, ?_⟩, hlike.status,
    hlike.current, hlike.steps⟩
  have hleft : ((e.after k).brokenOff (e.after k).machine).machine.port =
      ((e.mapPort Port.spared).after k).machine.port := by
    rw [hport, hspared, Port.delayed_zero]
    exact hread
  rw [hleft]
  rfl

theorem Shows.trans {a b c : Engine} (hab : a.Shows b) (hbc : b.Shows c) : a.Shows c :=
  ⟨hab.code.trans hbc.code, hab.status.trans hbc.status, hab.current.trans hbc.current,
    hab.steps.trans hbc.steps, hab.stack.trans hbc.stack, hab.generator.trans hbc.generator,
    hab.unread.trans hbc.unread, hab.output.trans hbc.output⟩

/-- A failed read by itself does not show. -/
theorem brokenOff_shows {e : Engine} {fault : ReadFault}
    (h : e.machine.port.read.1 = .error fault) : (e.brokenOff e.machine).Shows e := by
  obtain ⟨rest, -, hread⟩ := Port.faults_of_failed_read h
  have hport : (e.brokenOff e.machine).port = { e.machine.port with faults := rest } := hread
  exact ⟨rfl, rfl, rfl, rfl, rfl, rfl, by rw [hport]; rfl, by rw [hport]; rfl⟩

/-- Soundness is a matter of what an engine shows. -/
theorem Sound.of_shows {e e' : Engine} (h : e.Sound) (hshows : e'.Shows e) : e'.Sound where
  current_nonneg := hshows.current ▸ h.current_nonneg
  current_lt := by rw [hshows.current, hshows.code]; exact h.current_lt
  top hrun := by
    rw [hshows.stack, hshows.current]
    exact h.top (hshows.status ▸ hrun)
  word_lt w _ := w.toNat_lt
  fault_iff := fault_isSome_iff _
  size_visited := by rw [hshows.code]; exact h.size_visited
  visitedCount_le := by rw [hshows.code, hshows.steps]; exact h.visitedCount_le

theorem Smooth.sound {e : Engine} {k : Nat} (h : e.Smooth k) (he : e.Sound) : (e.after k).Sound :=
  after_sound he k fun j hj => by rw [h j hj]; simp

end Engine

namespace Debugger

open Options

/-! ### The loops -/

theorem singleStep_interrupted {e : Engine} (h : (singleStep e).verdict = .escaped .interrupted) :
    e.running = true ∧ e.step.2 = some .interrupted := by
  rw [singleStep_verdict_eq] at h
  have hbroken : e.step.2 = some .interrupted := by
    rcases hstep : e.step.2 with _ | (fault | _ | missing)
    · rcases endVerdict_cases (singleStep e).engine with ⟨hend, -⟩ | ⟨⟨stop, hend⟩, -⟩ <;>
        simp [hstep, hend] at h
    · simp [hstep] at h
    · rfl
    · simp [hstep] at h
  refine ⟨?_, hbroken⟩
  by_contra hrun
  rw [Engine.step_of_not_running fun hr => hrun (Engine.running_iff.2 hr)] at hbroken
  cases hbroken

theorem singleStep_going {e : Engine} (h : (singleStep e).verdict = .going) :
    e.running = true ∧ e.step.2 = none := by
  have hverdict := h
  rw [singleStep_verdict_eq] at h
  have hnone : e.step.2 = none := by
    rcases hstep : e.step.2 with _ | (fault | _ | missing)
    · rfl
    all_goals simp [hstep] at h
  refine ⟨?_, hnone⟩
  by_contra hrun
  have hstop : e.status ≠ .running := fun hr => hrun (Engine.running_iff.2 hr)
  rw [singleStep, if_neg hrun] at hverdict
  rcases endVerdict_cases e with ⟨-, hstatus⟩ | ⟨⟨stop, hend⟩, -⟩
  · exact hstop hstatus
  · rw [hend] at hverdict
    cases hverdict

/-- The last of `attempts` steps is interrupted, and the others come to their ends. -/
def InterruptsLast (e : Engine) (attempts : Nat) : Prop :=
  ∃ k, attempts = k + 1 ∧ e.Smooth k ∧ (e.after k).step.2 = some .interrupted

/-- The first step is interrupted. -/
theorem interruptsLast_here {e e₀ : Engine} (hlike : e.Like Port.FlushAlike e₀)
    (h : (singleStep e).verdict = .escaped .interrupted) : InterruptsLast e₀ (attempt e) := by
  obtain ⟨hrun, hbroken⟩ := singleStep_interrupted h
  rw [(Engine.step_like Port.flushAlike_simulation hlike).2] at hbroken
  rw [attempt, if_pos hrun]
  exact ⟨0, rfl, fun j hj => absurd hj (Nat.not_lt_zero j), hbroken⟩

/-- The first step goes on to steps of which the last is interrupted. -/
theorem interruptsLast_later {e e₀ : Engine} {rest : Nat} (hlike : e.Like Port.FlushAlike e₀)
    (h : (singleStep e).verdict = .going) (hrest : InterruptsLast (e₀.after (attempt e)) rest) :
    InterruptsLast e₀ (attempt e + rest) := by
  obtain ⟨hrun, hnone⟩ := singleStep_going h
  rw [(Engine.step_like Port.flushAlike_simulation hlike).2] at hnone
  rw [attempt, if_pos hrun] at hrest ⊢
  obtain ⟨k, rfl, hsmooth, hlast⟩ := hrest
  refine ⟨k + 1, Nat.add_comm 1 (k + 1), Engine.smooth_succ_iff.2 ⟨hnone, hsmooth⟩, ?_⟩
  rw [Engine.after_succ_next]
  exact hlast

theorem stepMany_interrupted (count : Nat) :
    ∀ {e e₀ : Engine}, e.Like Port.FlushAlike e₀ →
      (stepMany count e).verdict = .escaped .interrupted →
      InterruptsLast e₀ (stepAttempts count e) := by
  induction count with
  | zero => intro e e₀ _ h; cases h
  | succ count ih =>
    intro e e₀ hlike h
    have hfirst := singleStep_like hlike
    simp only [stepMany, stepAttempts] at h ⊢
    cases hverdict : (singleStep e).verdict with
    | going =>
      simp only [hverdict] at h ⊢
      exact interruptsLast_later hlike hverdict (ih hfirst h)
    | escaped | stopped | unfinished =>
      simp only [hverdict] at h ⊢
      exact interruptsLast_here hlike (hverdict.trans h)

theorem resumeFrom_interrupted (breakpoints : List Int) (limit : Option Int) (fuel : Nat) :
    ∀ (executed : Nat) {e e₀ : Engine}, e.Like Port.FlushAlike e₀ →
      (resumeFrom breakpoints limit fuel executed e).verdict = .escaped .interrupted →
      InterruptsLast e₀ (resumeAttempts breakpoints limit fuel executed e) := by
  induction fuel with
  | zero =>
    intro executed e e₀ _ h
    rw [resumeFrom] at h
    split at h
    · cases h
    · split at h <;> cases h
  | succ fuel ih =>
    intro executed e e₀ hlike h
    have hfirst := singleStep_like hlike
    rw [resumeFrom] at h
    rw [resumeAttempts]
    split at h
    · cases h
    · split at h
      · cases h
      · rename_i hlimit hbreak
        rw [if_neg hlimit, if_neg hbreak]
        cases hverdict : (singleStep e).verdict with
        | going =>
          simp only [hverdict] at h ⊢
          exact interruptsLast_later hlike hverdict (ih _ hfirst h)
        | escaped | stopped | unfinished =>
          simp only [hverdict] at h ⊢
          exact interruptsLast_here hlike (hverdict.trans h)

/-! ### Lines -/

theorem answered_ne_interrupted {reply : Reply} (h : reply.Answered) :
    reply.ended ≠ .escaped .interrupted := by
  rcases h with h | h <;> simp [h]

theorem misused_ne_interrupted {s : Session} {spec : Spec} {refusal : Refusal} :
    (Reply.misused s spec refusal).ended ≠ .escaped .interrupted := by
  cases refusal <;> simp [Reply.misused, Reply.refused]

theorem writing_ne_interrupted {numbers : List Int} {reply : Reply} (h : reply.Answered) :
    (Reply.writing numbers reply).ended ≠ .escaped .interrupted := by
  unfold Reply.writing
  split
  · exact answered_ne_interrupted h
  · simp [Reply.escaped]

/-- A restart that fails is reported, or lacks a seed. -/
theorem failed_ne_interrupted {clock : Int} {s : Session} {fault : SessionFault}
    (h : s.reset clock = .error fault) (s' : Session) :
    (Reply.failed s' fault).ended ≠ .escaped .interrupted := by
  rcases answered_failed_or h with hanswered | ⟨program, port, hprogram, hport, hseed⟩
  · exact answered_ne_interrupted (hanswered s')
  · rw [reset_of_blank hprogram hport hseed] at h
    cases h
    simp [Reply.failed, Reply.escaped]

theorem load_ne_interrupted (w : Surroundings) (s : Session) (words : List String) :
    (load w s words).ended ≠ .escaped .interrupted := by
  unfold load
  split
  · exact misused_ne_interrupted
  · simp only
    split
    · rename_i fault _
      cases fault <;> simp [Reply.escaped, Escape.ofHome]
    · split
      · simp [Reply.escaped]
      · exact answered_ne_interrupted answered_refused
      · split
        · rename_i hreset
          exact failed_ne_interrupted hreset _
        · simp [Reply.done]

theorem reset_ne_interrupted (w : Surroundings) (s : Session) :
    (reset w s).ended ≠ .escaped .interrupted := by
  unfold reset
  split
  · rename_i hreset
    exact failed_ne_interrupted hreset _
  · exact writing_ne_interrupted answered_done

theorem info_ne_interrupted (s : Session) : (info s).ended ≠ .escaped .interrupted := by
  unfold info
  split
  · exact answered_ne_interrupted answered_refused
  · split
    · exact answered_ne_interrupted answered_done
    · simp [Reply.escaped]

theorem breakpoints_ne_interrupted (s : Session) (words : List String) :
    (breakpoints s words).ended ≠ .escaped .interrupted := by
  unfold breakpoints
  split
  · exact misused_ne_interrupted
  · refine writing_ne_interrupted ?_
    split
    · exact answered_refused
    · exact answered_done
  · refine writing_ne_interrupted ?_
    split
    · exact answered_refused
    · exact answered_done
  · exact answered_ne_interrupted answered_done
  · exact writing_ne_interrupted answered_done

theorem listing_ne_interrupted (s : Session) (words : List String) :
    (listing s words).ended ≠ .escaped .interrupted := by
  unfold listing
  split
  · exact misused_ne_interrupted
  · split
    · exact answered_ne_interrupted answered_refused
    · simp only
      split
      · exact writing_ne_interrupted answered_refused
      · exact writing_ne_interrupted answered_done

/-- Nothing but `step` and `continue` can be interrupted. -/
theorem perform_interrupted {fuel : Nat} {w : Surroundings} {r : Registry} {s : Session}
    {words : List String} {action : Action}
    (h : (perform fuel w r s words action).ended = .escaped .interrupted) :
    action = .step ∨ action = .resume := by
  cases action with
  | step => exact .inl rfl
  | resume => exact .inr rfl
  | load => exact absurd h (load_ne_interrupted w s words)
  | reset => exact absurd h (reset_ne_interrupted w s)
  | breakpoints => exact absurd h (breakpoints_ne_interrupted s words)
  | listing => exact absurd h (listing_ne_interrupted s words)
  | aliases => exact absurd h (answered_ne_interrupted (aliases_answered s words))
  | help => exact absurd h (answered_ne_interrupted (help_answered r s words))
  | stack => exact absurd h (answered_ne_interrupted (stack_answered s))
  | info => exact absurd h (info_ne_interrupted s)
  | exit | missing => cases h

theorem moved_interrupted {s : Session} {m : Move}
    (h : (moved s m).ended = .escaped .interrupted) : m.verdict = .escaped .interrupted := by
  unfold moved at h
  cases hverdict : m.verdict with
  | escaped cause =>
    simp only [hverdict, Reply.escaped, Ended.escaped.injEq] at h
    rw [h]
  | stopped | going | unfinished =>
    simp only [hverdict] at h
    cases h

/-- A line that is interrupted steps or resumes a program, and the last chunk that it attempts is
interrupted. -/
theorem reply_interrupted {r : Registry} {s : Session} {x : Entry}
    (h : (x.reply r s).ended = .escaped .interrupted) :
    ∃ e m, s.engine = some e ∧ x.reply r s = moved s m ∧ m.verdict = .escaped .interrupted ∧
      m.engine.Like Port.FlushAlike (e.after (attempted x.fuel r s x.line)) ∧
      InterruptsLast e (attempted x.fuel r s x.line) := by
  cases hasked : asked r s x.line with
  | none => exact absurd h (answered_ne_interrupted (answered_of_not_asked hasked))
  | some request =>
    obtain ⟨action, words⟩ := request
    have hperform : (perform x.fuel x.surroundings r s words action).ended = .escaped .interrupted :=
      dispatch_of_asked hasked ▸ h
    rcases perform_interrupted hperform with rfl | rfl
    · rcases step_reply_or hasked with ⟨-, hne⟩ | ⟨e, count, he, hreply, hattempted⟩
      · exact absurd h hne
      · rw [hreply] at h
        have hverdict := moved_interrupted h
        refine ⟨e, _, he, hreply, hverdict, ?_⟩
        rw [hattempted]
        exact ⟨stepMany_like count (Engine.Like.refl e),
          stepMany_interrupted count (Engine.Like.refl e) hverdict⟩
    · rcases goOn_reply_or hasked with ⟨-, hne⟩ | ⟨e, limit, he, hreply, hattempted⟩
      · exact absurd h hne
      · rw [hreply] at h
        have hverdict := moved_interrupted h
        refine ⟨e, _, he, hreply, hverdict, ?_⟩
        rw [hattempted]
        exact ⟨resumeFrom_like _ _ _ 0 (Engine.Like.refl e),
          resumeFrom_interrupted _ _ _ 0 (Engine.Like.refl e) hverdict⟩

/-! ### The prompt -/

theorem keep_turns (p : Prompt) (command : String) : (p.keep command).1.turns = p.turns := by
  unfold Prompt.keep
  split <;> rfl

/-- The prompt takes note of an interrupt and goes on. -/
theorem enter_of_interrupted {fuel : Nat} {w : Surroundings} {r : Registry} {p : Prompt}
    {command : String} {move : Move}
    (hreply : dispatch fuel { w with files := (p.keep command).1.files } r
      (p.keep command).1.session command = moved (p.keep command).1.session move)
    (hverdict : move.verdict = .escaped .interrupted) :
    ∃ turn, turn.text = "interrupted\n" ∧
      p.enter fuel w r command =
        ({ (p.keep command).1 with
            session := { (p.keep command).1.session with engine := some move.engine }
            turns := p.turns ++ [turn] }, .status 1) := by
  have hended : (moved (p.keep command).1.session move).ended = .escaped .interrupted := by
    simp only [moved, hverdict, Reply.escaped]
  have htext : (moved (p.keep command).1.session move).text = "" := by
    simp only [Reply.text, moved, hverdict, Reply.escaped, Option.elim_none]
  have hsession := moved_session (p.keep command).1.session move
  refine ⟨{ Turn.ofReply (p.keep command).1.session (moved (p.keep command).1.session move) with
    text := (moved (p.keep command).1.session move).text ++ "interrupted\n"
    log := (p.keep command).2 ++ (moved (p.keep command).1.session move).log }, ?_, ?_⟩
  · rw [htext, String.empty_append]
  · simp only [Prompt.enter, hreply, keep_turns, hended, hsession]
    rfl

/-- **An interrupted line leaves the program in the middle of a chunk.** Let a command be interrupted at
the prompt. Then the prompt takes note of it and goes on, and nothing has changed but the engine. That
one made `k` steps, and in the next chunk it performed the slots before a read; the chunk is still the
current one, and it is neither counted nor marked.

If these slots changed nothing, then the engine shows the same as before the chunk, and from there on it
makes the steps that the engine of the session would have made without the interrupt. -/
theorem enter_interrupted (fuel : Nat) (w : Surroundings) (r : Registry) (p : Prompt)
    (command : String)
    (h : (dispatch fuel { w with files := (p.keep command).1.files } r (p.keep command).1.session
      command).ended = .escaped .interrupted) :
    ∃ e k c before m e' turn,
      (p.keep command).1.session.engine = some e ∧
      p.enter fuel w r command =
        ({ (p.keep command).1 with
            session := { (p.keep command).1.session with engine := some e' }
            turns := p.turns ++ [turn] }, .status 1) ∧
      turn.text = "interrupted\n" ∧
      e.Smooth k ∧ (e.after k).InterruptedIn c before m ∧
      e'.Like Port.FlushAlike ((e.after k).brokenOff m) ∧
      (m = (e.after k).machine →
        e'.Shows (e.after k) ∧ (e.Sound → e'.Sound) ∧
          ∀ j, (e'.after j).Shows ((e.mapPort Port.spared).after (k + j))) := by
  obtain ⟨e, move, he, hreply, hverdict, hlike, k, hk, hsmooth, hlast⟩ :=
    reply_interrupted (x := ⟨command, { w with files := (p.keep command).1.files }, fuel⟩) h
  obtain ⟨c, before, m, hin, hnext⟩ := Engine.step_interrupted hlast
  rw [hk, Engine.after_succ] at hlike
  have hbroken := hlike.trans hnext
  have hdispatch : dispatch fuel { w with files := (p.keep command).1.files } r
      (p.keep command).1.session command = moved (p.keep command).1.session move := hreply
  obtain ⟨turn, htext, henter⟩ := enter_of_interrupted hdispatch hverdict
  refine ⟨e, k, c, before, m, move.engine, turn, he, henter, htext, hsmooth, hin, hbroken, ?_⟩
  rintro rfl
  have hshows := hbroken.shows.trans (Engine.brokenOff_shows hin.read)
  have hrest := hbroken.trans (Engine.resume_unharmed hsmooth hin rfl)
  refine ⟨hshows, fun hsound => (hsmooth.sound hsound).of_shows hshows, fun j => ?_⟩
  rw [Engine.after_add]
  exact (Engine.after_like Port.flushAlike_simulation hrest j).shows

/-- Surroundings with a program whose chunk increments the top word and then reads. -/
def incrementingFile : Surroundings :=
  { files := { nodes := [(["p"], .file (encodeText "50FFB"))] } }

/-- A prompt at which this program is loaded and its first read will be interrupted. -/
def beforeInterrupt : Prompt :=
  { session := sessionAfter registry [⟨"load p", incrementingFile, 0⟩]
      (freshSession ((Port.ofBuffer []).failingAfter 0 .interrupted) false (.number 0))
    files := incrementingFile.files
    history := none }

/-- The interrupted read leaves the increment behind: the program still runs and stands on chunk 0, but
the top word of its stack is 1. -/
theorem enter_interrupted_incremented :
    (dispatch 0 incrementingFile registry beforeInterrupt.session "step").ended =
      .escaped .interrupted ∧
    ∃ (e : Engine) (k : Nat) (c : Chunk) (before : List Nat) (m : Machine) (e' : Engine),
      (e.after k).InterruptedIn c before m ∧
      e'.Like Port.FlushAlike ((e.after k).brokenOff m) ∧
      (beforeInterrupt.enter 0 incrementingFile registry "step").1.session.engine = some e' ∧
      e'.status = .running ∧ e'.current = 0 ∧ e'.stack = [1] := by
  have hended : (dispatch 0 incrementingFile registry beforeInterrupt.session "step").ended =
      .escaped .interrupted := by decide +kernel
  obtain ⟨e, k, c, before, m, e', turn, -, henter, -, -, hin, hlike, -⟩ :=
    enter_interrupted 0 incrementingFile registry beforeInterrupt "step" hended
  have hengine : (beforeInterrupt.enter 0 incrementingFile registry "step").1.session.engine =
      some e' := by rw [henter]
  have hfacts : (beforeInterrupt.enter 0 incrementingFile registry "step").1.session.engine.map
      (fun e => (e.status, e.current, e.stack)) = some (.running, 0, [1]) := by decide +kernel
  rw [hengine] at hfacts
  simp only [Option.map_some, Option.some.injEq, Prod.mk.injEq] at hfacts
  exact ⟨hended, e, k, c, before, m, e', hin, hlike, hengine, hfacts⟩

end Debugger

end ChunkMachine
