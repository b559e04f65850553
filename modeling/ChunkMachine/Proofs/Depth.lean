import ChunkMachine.Proofs.Step

/-!
# Underflow is a matter of depth

Whether a chunk underflows does not depend on the words of the stack, on the input or on the generator,
but only on how many words there are. Each operation needs a number of words and changes their number by
a fixed amount (`Opcode.needs`, `Opcode.leaves`), so the depth at every planned slot can be told before
anything is executed. A chunk underflows in the first planned slot that needs more words than there are
by then (`Chunk.FirstShort`), and with no such slot it ends as planned.

## What is proved

* `act_depth`: what an operation does, by depth.
* `execute_depth`: what becomes of a chunk, by depth.
* `underflows_iff`: where a chunk underflows, and what it says.
* `underflow_by_depth`: the comparison of two machines of the same depth.

All this is for ports whose reads do not fail, for a failing read breaks a chunk off at any depth.
-/

namespace ChunkMachine

/-! ### The depth of a stack, operation by operation -/

namespace Opcode

/-- How many words an operation needs. -/
def needs : Opcode → Nat
  | write | drop | dup | inc | dec | rot => 1
  | swap | add | diff => 2
  | read | shuf | skipNew | skipOld | ret | halt | nop => 0

/-- What an operation uses the words for that it needs, if it needs any. -/
def use? : Opcode → Option StackUse
  | write => some .output
  | drop => some .pop
  | dup => some .dup
  | inc => some .inc
  | dec => some .dec
  | rot => some .rotate
  | swap => some .swap
  | add => some .add
  | diff => some .diff
  | read | shuf | skipNew | skipOld | ret | halt | nop => none

/-- How many words an operation leaves of so many. -/
def leaves (op : Opcode) (depth : Nat) : Nat :=
  match op with
  | read | dup => depth + 1
  | write | drop | add | diff => depth - 1
  | swap | inc | dec | rot | shuf | skipNew | skipOld | ret | halt | nop => depth

theorem needs_le_two (op : Opcode) : op.needs ≤ 2 := by
  cases op <;> decide

/-- No operation takes more than one word away. -/
theorem le_leaves_succ (op : Opcode) (depth : Nat) : depth ≤ op.leaves depth + 1 := by
  cases op <;> simp only [leaves] <;> omega

end Opcode

/-- No read of the port fails. -/
def Port.Unfailing (p : Port) : Prop := p.faults = []

theorem Port.Unfailing.read {p : Port} (h : p.Unfailing) :
    (∃ b, p.read.1 = .ok b) ∧ p.read.2.Unfailing := by
  rcases p with ⟨endpoint, faults⟩
  obtain rfl : faults = [] := h
  exact ⟨⟨_, rfl⟩, rfl⟩

/-- What an operation does to a stack of some depth. -/
inductive ActsByDepth (op : Opcode) (m : Machine) : Machine × Option Trouble → Prop where
  /-- There are too few words. The operation fails and says so. -/
  | short {use : StackUse} (huse : op.use? = some use) (hshort : m.stack.length < op.needs) :
    ActsByDepth op m (m, some (.underflow ⟨use, m.stack.length⟩))
  /-- There are enough words. The operation is done. -/
  | enough {m' : Machine} (henough : op.needs ≤ m.stack.length)
    (hdepth : m'.stack.length = op.leaves m.stack.length) (hport : m'.port.Unfailing) :
    ActsByDepth op m (m', none)

/-- **An operation fails or is done by depth alone.** -/
theorem act_depth (op : Opcode) {m : Machine} (hport : m.port.Unfailing) :
    ActsByDepth op m (op.act m) := by
  rcases m with ⟨stack, port, generator⟩
  cases op with
  | read =>
    obtain ⟨⟨b, hb⟩, hport'⟩ := hport.read
    simp only [Opcode.act, Machine.readByte]
    rcases hread : port.read with ⟨answer, port'⟩
    rw [hread] at hb hport'
    cases hb
    exact .enough (Nat.zero_le _) rfl hport'
  | write | drop | dup | inc | dec | rot =>
    rcases stack with _ | ⟨a, stack⟩
    · exact .short rfl (Nat.zero_lt_one)
    · exact .enough (Nat.succ_pos _) (by simp [Opcode.leaves]) hport
  | swap | add | diff =>
    rcases stack with _ | ⟨a, _ | ⟨b, stack⟩⟩
    · exact .short rfl (Nat.zero_lt_two)
    · exact .short rfl (Nat.one_lt_two)
    · exact .enough (Nat.le_add_left 2 _) rfl hport
  | shuf => exact .enough (Nat.zero_le _) (Stack.length_shuffle stack generator) hport
  | skipNew | skipOld | ret | halt | nop => exact .enough (Nat.zero_le _) rfl hport

/-! ### The depth of a stack, slot by slot -/

namespace Chunk

/-- How many words the operations of some slots leave of so many. -/
def depthAfter (c : Chunk) (slots : List Nat) (depth : Nat) : Nat :=
  slots.foldl (fun depth slot => (c.opcode slot).leaves depth) depth

/-- Each of some slots, in turn, finds the words that it needs. -/
def Enough (c : Chunk) : (slots : List Nat) → (depth : Nat) → Prop
  | [], _ => True
  | slot :: slots, depth =>
    (c.opcode slot).needs ≤ depth ∧ c.Enough slots ((c.opcode slot).leaves depth)

/-- The first of some slots that needs more words than there are by then, and how many there are. -/
def FirstShort (c : Chunk) (slots : List Nat) (depth slot left : Nat) : Prop :=
  ∃ before after, slots = before ++ slot :: after ∧ c.Enough before depth ∧
    left = c.depthAfter before depth ∧ left < (c.opcode slot).needs

/-- Slots that are fewer than the words find enough of them. -/
theorem enough_of_length_lt (c : Chunk) (slots : List Nat) :
    ∀ {depth : Nat}, slots.length < depth → c.Enough slots depth := by
  induction slots with
  | nil => intro depth _; trivial
  | cons slot slots ih =>
    intro depth hlt
    have hneeds := (c.opcode slot).needs_le_two
    have hleaves := (c.opcode slot).le_leaves_succ depth
    rw [List.length_cons] at hlt
    exact ⟨by omega, ih (by omega)⟩

/-- Either the first slot falls short itself, or it finds enough and one of the others falls short. -/
theorem firstShort_cons {c : Chunk} {slots : List Nat} {first depth slot left : Nat} :
    c.FirstShort (first :: slots) depth slot left ↔
      depth < (c.opcode first).needs ∧ slot = first ∧ left = depth ∨
        (c.opcode first).needs ≤ depth ∧
          c.FirstShort slots ((c.opcode first).leaves depth) slot left := by
  constructor
  · rintro ⟨before, after, hslots, henough, hleft, hshort⟩
    cases before with
    | nil =>
      cases hslots
      obtain rfl : left = depth := hleft
      exact .inl ⟨hshort, rfl, rfl⟩
    | cons first' before =>
      cases hslots
      exact .inr ⟨henough.1, before, after, rfl, henough.2, hleft, hshort⟩
  · rintro (⟨hshort, rfl, rfl⟩ | ⟨henough, before, after, rfl, hbefore, hleft, hshort⟩)
    · exact ⟨[], slots, rfl, trivial, rfl, hshort⟩
    · exact ⟨first :: before, after, rfl, ⟨henough, hbefore⟩, hleft, hshort⟩

/-- A slot that falls short is one that does not find enough. -/
theorem FirstShort.not_enough {c : Chunk} {slots : List Nat} {depth slot left : Nat}
    (h : c.FirstShort slots depth slot left) : ¬ c.Enough slots depth := by
  obtain ⟨before, after, rfl, -, rfl, hshort⟩ := h
  induction before generalizing depth with
  | nil => exact fun henough => absurd henough.1 (Nat.not_le_of_lt hshort)
  | cons first before ih => exact fun henough => ih hshort henough.2

/-- There is only one such slot. -/
theorem FirstShort.unique {c : Chunk} {slots : List Nat} {depth slot slot' left left' : Nat}
    (h : c.FirstShort slots depth slot left) (h' : c.FirstShort slots depth slot' left') :
    slot = slot' ∧ left = left' := by
  induction slots generalizing depth with
  | nil =>
    obtain ⟨before, after, hslots, -⟩ := h
    simp at hslots
  | cons first slots ih =>
    rw [firstShort_cons] at h h'
    rcases h with ⟨hshort, rfl, rfl⟩ | ⟨henough, h⟩
    · rcases h' with ⟨-, rfl, rfl⟩ | ⟨henough', -⟩
      · exact ⟨rfl, rfl⟩
      · exact absurd hshort (Nat.not_lt_of_le henough')
    · rcases h' with ⟨hshort', -⟩ | ⟨-, h'⟩
      · exact absurd hshort' (Nat.not_lt_of_le henough)
      · exact ih h h'

end Chunk

section Perform

variable {c : Chunk}

/-- Operations that come to their end found enough words, and left so many. -/
theorem enough_of_perform (slots : List Nat) : ∀ {m m' : Machine}, m.port.Unfailing →
    c.perform slots m = (m', none) →
    c.Enough slots m.stack.length ∧ m'.stack.length = c.depthAfter slots m.stack.length ∧
      m'.port.Unfailing := by
  induction slots with
  | nil =>
    intro m m' hport h
    cases h
    exact ⟨trivial, rfl, hport⟩
  | cons slot slots ih =>
    intro m m' hport h
    have hacts := act_depth (c.opcode slot) hport
    rcases hact : (c.opcode slot).act m with ⟨m₁, trouble⟩
    rw [hact] at hacts
    simp only [Chunk.perform, hact] at h
    cases hacts with
    | short => cases h
    | enough henough hdepth hport₁ =>
      obtain ⟨hrest, hlength, hport'⟩ := ih hport₁ h
      rw [hdepth] at hrest hlength
      exact ⟨⟨henough, hrest⟩, hlength, hport'⟩

/-- Operations that do not come to their end break off in the first slot that falls short. -/
theorem firstShort_of_perform {slots : List Nat} {m m' : Machine} {slot : Nat} {trouble : Trouble}
    (hport : m.port.Unfailing) (h : c.perform slots m = (m', some (slot, trouble))) :
    ∃ use left, trouble = .underflow ⟨use, left⟩ ∧ (c.opcode slot).use? = some use ∧
      c.FirstShort slots m.stack.length slot left := by
  obtain ⟨before, after, m₁, hslots, hbefore, hact⟩ := perform_failed h
  obtain ⟨henough, hdepth, hport₁⟩ := enough_of_perform before hport hbefore
  have hacts := act_depth (c.opcode slot) hport₁
  rw [hact] at hacts
  cases hacts with
  | @short use huse hshort =>
    exact ⟨use, _, rfl, huse, before, after, hslots, henough, hdepth, hshort⟩

end Perform

/-! ### The depth of a stack, chunk by chunk -/

/-- The execution broke off in this slot, for want of words. -/
def Execution.Underflows (x : Execution) (slot : Nat) (u : Underflow) : Prop :=
  x.slot = slot ∧ x.result = .error (.underflow u)

section Execute

variable {c : Chunk} {visited : Bool} {m : Machine}

theorem length_slots_planFrom (visited : Bool) (ops : List Opcode) : ∀ (skip : Bool) (slot : Nat),
    (planFrom visited skip slot ops).slots.length ≤ ops.length := by
  induction ops with
  | nil => intro skip slot; cases skip <;> simp [planFrom]
  | cons op ops ih =>
    intro skip slot
    cases skip with
    | true => exact Nat.le_succ_of_le (ih false (slot + 1))
    | false =>
      rw [planFrom]
      split
      · simp
      · exact Nat.succ_le_succ (ih _ (slot + 1))

/-- What becomes of a chunk, by depth. -/
inductive ExecutesByDepth (c : Chunk) (visited : Bool) (m : Machine) : Execution → Prop where
  /-- A slot falls short. -/
  | short {m' : Machine} {slot left : Nat} {use : StackUse} (huse : (c.opcode slot).use? = some use)
    (hshort : c.FirstShort (c.plan visited).slots m.stack.length slot left) :
    ExecutesByDepth c visited m ⟨m', slot, .error (.underflow ⟨use, left⟩)⟩
  /-- Every planned slot finds enough words. -/
  | enough {m' : Machine} {slot : Nat}
    (henough : c.Enough (c.plan visited).slots m.stack.length)
    (hdepth : m'.stack.length = c.depthAfter (c.plan visited).slots m.stack.length) :
    ExecutesByDepth c visited m ⟨m', slot, .ok (c.plan visited).ending⟩

/-- **A chunk underflows or ends as planned by depth alone.** -/
theorem execute_depth (hport : m.port.Unfailing) :
    ExecutesByDepth c visited m (execute c.toList visited m) := by
  rw [execute_eq_follow, Plan.follow]
  rcases hperform : c.perform (c.plan visited).slots m with ⟨m', _ | ⟨slot, trouble⟩⟩
  · obtain ⟨henough, hdepth, -⟩ := enough_of_perform _ hport hperform
    exact .enough henough hdepth
  · obtain ⟨use, left, rfl, huse, hshort⟩ := firstShort_of_perform hport hperform
    exact .short huse hshort

/-- **A chunk underflows in the first planned slot that needs more words than there are by then**, and says
what it needs them for and how many there are. -/
theorem underflows_iff (hport : m.port.Unfailing) {slot : Nat} {u : Underflow} :
    (execute c.toList visited m).Underflows slot u ↔
      (c.opcode slot).use? = some u.use ∧
        c.FirstShort (c.plan visited).slots m.stack.length slot u.depth := by
  have hexecutes : ExecutesByDepth c visited m (execute c.toList visited m) := execute_depth hport
  generalize execute c.toList visited m = x at hexecutes
  cases hexecutes with
  | @short m' slot' left use huse hshort =>
    constructor
    · rintro ⟨rfl, hresult⟩
      cases hresult
      exact ⟨huse, hshort⟩
    · rintro ⟨huse', hshort'⟩
      obtain ⟨rfl, hleft⟩ := hshort.unique hshort'
      have hsame : use = u.use := Option.some.inj (huse.symm.trans huse')
      exact ⟨rfl, by rw [hsame, hleft]⟩
  | enough henough hdepth =>
    refine iff_of_false ?_ fun h => h.2.not_enough henough
    rintro ⟨-, hresult⟩
    cases hresult

/-- Six words are enough for any chunk. -/
theorem not_underflows_of_six (hport : m.port.Unfailing) (hdepth : 6 ≤ m.stack.length) (slot : Nat)
    (u : Underflow) : ¬ (execute c.toList visited m).Underflows slot u := by
  intro hunderflows
  have hshort := ((underflows_iff hport).1 hunderflows).2
  have hlength := length_slots_planFrom visited c.toList false 0
  rw [Vector.length_toList] at hlength
  exact hshort.not_enough (c.enough_of_length_lt _ (Nat.lt_of_le_of_lt hlength hdepth))

end Execute

/-- An underflow in a step is recorded with the operation that failed and the chunk that it stands in. -/
theorem Engine.step_of_underflows {e : Engine} {c : Chunk} {slot : Nat} {u : Underflow}
    (hrun : e.status = .running) (hc : e.code.chunk e.current = .ok c)
    (h : (e.execution c).Underflows slot u) :
    e.step.2 = some (.fault (.underflow u (c.opcode slot) e.current.toNat)) ∧
      e.next.status = .failed (.underflow u (c.opcode slot) e.current.toNat) := by
  obtain ⟨hslot, hresult⟩ := h
  have hexits := exits_step hrun hc
  unfold next
  generalize e.step = after at hexits
  rcases after with ⟨e', abort⟩
  cases hexits with
  | underflowed trace hresult' hfault =>
    rw [hresult] at hresult'
    cases hresult'
    rw [hfault, hslot]
    exact ⟨rfl, rfl⟩
  | halted trace hresult' | starved trace hresult' | interrupted trace hresult'
  | emptied trace hresult' | strayed trace hresult' | moved trace hresult' =>
    rw [hresult] at hresult'
    cases hresult'

/-! ### Two machines of the same depth -/

theorem underflows_congr {c : Chunk} {visited : Bool} {m n : Machine} (hm : m.port.Unfailing)
    (hn : n.port.Unfailing) (hdepth : m.stack.length = n.stack.length) {slot : Nat} {u : Underflow} :
    (execute c.toList visited m).Underflows slot u ↔
      (execute c.toList visited n).Underflows slot u := by
  rw [underflows_iff hm, underflows_iff hn, hdepth]

/-- What does not underflow ends, on both machines in the same way and at the same depth. -/
theorem ends_alike {c : Chunk} {visited : Bool} {m n : Machine} (hm : m.port.Unfailing)
    (hn : n.port.Unfailing) (hdepth : m.stack.length = n.stack.length)
    (h : ∀ slot u, ¬ (execute c.toList visited m).Underflows slot u) :
    ∃ ending, (execute c.toList visited m).result = .ok ending ∧
      (execute c.toList visited n).result = .ok ending ∧
      (execute c.toList visited m).machine.stack.length =
        (execute c.toList visited n).machine.stack.length := by
  have hxm : ExecutesByDepth c visited m (execute c.toList visited m) := execute_depth hm
  have hxn : ExecutesByDepth c visited n (execute c.toList visited n) := execute_depth hn
  generalize execute c.toList visited m = x at hxm h
  generalize execute c.toList visited n = y at hxn
  cases hxm with
  | short => exact absurd ⟨rfl, rfl⟩ (h _ _)
  | enough henough hdepthm =>
    cases hxn with
    | short huse hshort => exact absurd (hdepth ▸ henough) hshort.not_enough
    | enough henough' hdepthn =>
      exact ⟨_, rfl, rfl, hdepthm.trans ((congrArg _ hdepth).trans hdepthn.symm)⟩

/-- **Underflow is decided by depth alone.** Let a chunk be executed, with the same flag, on two machines
whose stacks have the same depth and whose ports do not fail. Whatever words, inputs and generators they
have, it underflows in both, in the same slot and with the same message, or it ends in both, in the same
way and at the same depth. The slot is the first planned one that needs more words than there are. With
six words no chunk underflows. An engine whose step underflows records the operation in that slot and the
chunk. -/
theorem underflow_by_depth (c : Chunk) (visited : Bool) {m n : Machine} (hm : m.port.Unfailing)
    (hn : n.port.Unfailing) (hdepth : m.stack.length = n.stack.length) :
    (∀ slot u, (execute c.toList visited m).Underflows slot u ↔
      (execute c.toList visited n).Underflows slot u) ∧
    ((∀ slot u, ¬ (execute c.toList visited m).Underflows slot u) →
      ∃ ending, (execute c.toList visited m).result = .ok ending ∧
        (execute c.toList visited n).result = .ok ending ∧
        (execute c.toList visited m).machine.stack.length =
          (execute c.toList visited n).machine.stack.length) ∧
    (∀ slot u, (execute c.toList visited m).Underflows slot u ↔
      (c.opcode slot).use? = some u.use ∧
        c.FirstShort (c.plan visited).slots m.stack.length slot u.depth) ∧
    (6 ≤ m.stack.length → ∀ slot u, ¬ (execute c.toList visited m).Underflows slot u) ∧
    ∀ (e : Engine) (index : Nat), e.status = .running → e.current = index →
      e.code.chunk e.current = .ok c → e.flag = visited → e.machine = m →
      ∀ slot u, (execute c.toList visited m).Underflows slot u →
        e.step.2 = some (.fault (.underflow u (c.opcode slot) index)) ∧
          e.next.status = .failed (.underflow u (c.opcode slot) index) := by
  refine ⟨fun slot u => underflows_congr hm hn hdepth, ends_alike hm hn hdepth,
    fun slot u => underflows_iff hm, not_underflows_of_six hm, ?_⟩
  rintro e index hrun hcurrent hc rfl rfl slot u hunderflows
  have hstep := Engine.step_of_underflows hrun hc hunderflows
  rw [hcurrent, Int.toNat_natCast] at hstep
  exact hstep

/-- A chunk that reads and then adds three times. -/
def addingThrice : Chunk := #v[.read, .add, .add, .add, .halt]

/-- Two machines of depth two with nothing else in common. -/
def pairMachines : Machine × Machine :=
  (⟨[5, 9], .ofBuffer [1], ⟨#[], 0⟩⟩, ⟨[0, 4294967295], .ofStreams none false, ⟨#[7], 1⟩⟩)

/-- On both machines the third addition finds one word. -/
theorem underflow_by_depth_adding :
    pairMachines.1.port.Unfailing ∧ pairMachines.2.port.Unfailing ∧
    pairMachines.1.stack.length = pairMachines.2.stack.length ∧
    (execute addingThrice.toList false pairMachines.1).Underflows 3 ⟨.add, 1⟩ ∧
    (execute addingThrice.toList false pairMachines.2).Underflows 3 ⟨.add, 1⟩ := by
  have hm : pairMachines.1.port.Unfailing := rfl
  have hn : pairMachines.2.port.Unfailing := rfl
  have hdepth : pairMachines.1.stack.length = pairMachines.2.stack.length := rfl
  obtain ⟨hsame, -⟩ := underflow_by_depth addingThrice false hm hn hdepth
  have hfirst : (execute addingThrice.toList false pairMachines.1).Underflows 3 ⟨.add, 1⟩ :=
    ⟨rfl, rfl⟩
  exact ⟨hm, hn, hdepth, hfirst, (hsame 3 _).1 hfirst⟩

end ChunkMachine
