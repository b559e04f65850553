import ChunkMachine.Proofs.Shuffle
import Mathlib.Algebra.Order.Group.Unbundled.Int
import Mathlib.Algebra.Order.Ring.Int

/-!
# The values of a stack

A stack is a list of words, top first, and an operation that finds too few of them gives no stack at all.
The same stack can be held as a list of integers that grows at its end, and its operations done as work
on that list in place (`StackOp.work`). Such work takes values off before it puts the result back, it cuts
a result down to 32 bits only where the result can have outgrown them, and where it breaks off, what it
has done stays done. So nothing in this account keeps the integers in range, and nothing keeps an
operation that fails from leaving half of its work behind.

Both follow from what is proved here: the words and the list of integers tell the same of every
operation, and hence of every sequence of them.

## What is proved

* `work_start`: an operation on the words answers as the work on their values does, and leaves the words
  of the values that the work leaves.
* `held_after`: the same for any operations in a row.
* `fails_iff`: an operation fails just if it needs more words than there are.
* `stack_values`: the whole account, for every list of integers that a stack is made from.
-/

namespace ChunkMachine

/-! ### Words as integers -/

namespace Word

/-- The integer that a word stands for. -/
def value (w : Word) : Int := w.toNat

theorem value_nonneg (w : Word) : 0 ≤ w.value := Int.natCast_nonneg _

theorem value_lt (w : Word) : w.value < 2 ^ 32 := by
  have := w.toNat_lt
  unfold value
  omega

@[simp] theorem value_ofInt (i : Int) : (ofInt i).value = i % 2 ^ 32 := by
  unfold value ofInt
  rw [UInt32.toNat_ofNat']
  omega

@[simp] theorem ofInt_value (w : Word) : ofInt w.value = w := by
  have hlt := w.value_lt
  have hnonneg := w.value_nonneg
  refine UInt32.toNat_inj.1 (Int.ofNat_inj.1 ?_)
  show (ofInt w.value).value = w.value
  rw [value_ofInt, Int.emod_eq_of_lt hnonneg hlt]

@[simp] theorem value_add (a b : Word) : value (a + b) = (a.value + b.value) % 2 ^ 32 := by
  unfold value
  rw [UInt32.toNat_add]
  omega

theorem value_one : value 1 = 1 := rfl

/-- The distance of two words is that of their values. -/
@[simp] theorem value_distance (a b : Word) :
    (Stack.distance a b).value = |b.value - a.value| := by
  unfold Stack.distance
  split
  · rename_i hle
    have hle' : a.toNat ≤ b.toNat := UInt32.le_iff_toNat_le.1 hle
    unfold value
    rw [UInt32.toNat_sub_of_le b a hle, abs_of_nonneg (by omega)]
    omega
  · rename_i hlt
    have hlt' : b.toNat < a.toNat := by
      rw [UInt32.le_iff_toNat_le] at hlt
      omega
    have hle : b ≤ a := UInt32.le_iff_toNat_le.2 (Nat.le_of_lt hlt')
    unfold value
    rw [UInt32.toNat_sub_of_le a b hle, abs_of_neg (by omega)]
    omega

/-- One less than a word, or zero. -/
theorem toNat_pred (w : Word) : (if w = 0 then 0 else w - 1 : Word).toNat = w.toNat - 1 := by
  split
  · rename_i hzero
    subst hzero
    rfl
  · rename_i hne
    have hpos : w.toNat ≠ 0 := fun h => hne (UInt32.toNat_inj.1 h)
    have hone : (1 : Word) ≤ w := UInt32.le_iff_toNat_le.2 (Nat.one_le_iff_ne_zero.2 hpos)
    rw [UInt32.toNat_sub_of_le w 1 hone]
    rfl

end Word

namespace Stack

/-- The values of a stack, top first. -/
def values (s : Stack) : List Int := s.map Word.value

/-- The values of a stack as a list that grows at its end holds them: the top one last. -/
def held (s : Stack) : List Int := s.values.reverse

@[simp] theorem held_nil : held [] = [] := rfl

@[simp] theorem held_cons (w : Word) (s : Stack) : held (w :: s) = held s ++ [w.value] := by
  simp [held, values]

@[simp] theorem length_held (s : Stack) : s.held.length = s.length := by
  simp [held, values]

theorem held_append (s t : Stack) : held (s ++ t) = held t ++ held s := by
  simp [held, values]

/-- A stack is rebuilt from its values. -/
theorem ofInts_values (s : Stack) : ofInts s.values = s := by
  simp [ofInts, values, Function.comp_def]

theorem held_ofInts (initial : List Int) :
    (ofInts initial).held = (initial.map (· % 2 ^ 32)).reverse := by
  simp [held, values, ofInts, Function.comp_def]

theorem mem_held_range (s : Stack) : ∀ v ∈ s.held, 0 ≤ v ∧ v < 2 ^ 32 := by
  intro v hv
  simp only [held, values, List.mem_reverse, List.mem_map] at hv
  obtain ⟨w, -, rfl⟩ := hv
  exact ⟨w.value_nonneg, w.value_lt⟩

end Stack

/-! ### Operations -/

/-- An operation on a stack. -/
inductive StackOp where
  | push (value : Int)
  | pop
  | peekTop
  | peekSecond
  | swap
  | dup
  | rotate
  | shuffle (g : Generator)
  | add
  | diff
  | inc
  | dec

/-- The answer where only the stack is changed: none, with the stack that there is afterwards. -/
def Stack.changed (s : Stack) : Except Underflow Stack → Except Underflow (Option Word) × Stack
  | .ok s' => (.ok none, s')
  | .error u => (.error u, s)

namespace StackOp

/-- What an operation uses the words for that it needs; a push and a shuffle need none. -/
def use? : StackOp → Option StackUse
  | push _ | shuffle _ => none
  | pop => some .pop
  | peekTop => some .peekTop
  | peekSecond => some .peekSecond
  | swap => some .swap
  | dup => some .dup
  | rotate => some .rotate
  | add => some .add
  | diff => some .diff
  | inc => some .inc
  | dec => some .dec

/-- How many words an operation needs. -/
def needs (op : StackOp) : Nat := op.use?.elim 0 StackUse.needs

/-- The answer to an operation, which is a word if it reads one, and the stack afterwards. -/
def perform : StackOp → Stack → Except Underflow (Option Word) × Stack
  | push v, s => (.ok none, s.push (.ofInt v))
  | pop, s =>
    match s.pop with
    | .ok (w, s') => (.ok (some w), s')
    | .error u => (.error u, s)
  | peekTop, s => (s.peekTop.map some, s)
  | peekSecond, s => (s.peekSecond.map some, s)
  | swap, s => s.changed s.swap
  | dup, s => s.changed s.dup
  | rotate, s => s.changed s.rotate
  | shuffle g, s => (.ok none, (s.shuffle g).1)
  | add, s => s.changed s.add
  | diff, s => s.changed s.diff
  | inc, s => s.changed s.inc
  | dec, s => s.changed s.dec

end StackOp

/-- The stack after some operations, whether or not they failed. -/
def Stack.after (s : Stack) (ops : List StackOp) : Stack :=
  ops.foldl (fun s op => (op.perform s).2) s

/-! ### Work in place -/

/-- Work on a list of integers. Where it breaks off, the list stays as it is by then. -/
abbrev Work := ExceptT Underflow (StateM (List Int))

namespace Work

variable {α β : Type}

/-- Set to work on a list: what comes of it, and the list afterwards. -/
def start (work : Work α) (values : List Int) : Except Underflow α × List Int :=
  StateT.run (ExceptT.run work) values

/-- Break off if there are fewer values than the use needs. -/
def require (use : StackUse) : Work Unit := do
  let values ← get
  if values.length < use.needs then throw ⟨use, values.length⟩

/-- Take the last value off. -/
def takeOff : Work Int := modifyGet fun values => (values.getLastD 0, values.dropLast)

/-- Put a value at the end. -/
def putOn (v : Int) : Work Unit := modify (· ++ [v])

@[simp] theorem start_pure (a : α) (values : List Int) :
    start (pure a) values = (.ok a, values) := rfl

@[simp] theorem start_bind (work : Work α) (f : α → Work β) (values : List Int) :
    start (work >>= f) values =
      match start work values with
      | (.ok a, values) => start (f a) values
      | (.error u, values) => (.error u, values) := by
  unfold start
  rw [ExceptT.run_bind, StateT.run_bind]
  rcases StateT.run (ExceptT.run work) values with ⟨u | a, values'⟩ <;> rfl

@[simp] theorem start_map (f : α → β) (work : Work α) (values : List Int) :
    start (f <$> work) values = ((start work values).1.map f, (start work values).2) := by
  rw [← bind_pure_comp, start_bind]
  rcases start work values with ⟨u | a, values'⟩ <;> rfl

@[simp] theorem start_get (values : List Int) : start get values = (.ok values, values) := rfl

@[simp] theorem start_modify (f : List Int → List Int) (values : List Int) :
    start (modify f) values = (.ok (), f values) := rfl

@[simp] theorem start_require (use : StackUse) (values : List Int) :
    start (require use) values =
      if values.length < use.needs then (.error ⟨use, values.length⟩, values)
      else (.ok (), values) := by
  unfold require
  rw [start_bind, start_get]
  simp only
  split <;> rfl

@[simp] theorem start_takeOff (values : List Int) (v : Int) :
    start takeOff (values ++ [v]) = (.ok v, values) := by
  show (Except.ok ((values ++ [v]).getLastD 0), (values ++ [v]).dropLast) = (Except.ok v, values)
  simp

@[simp] theorem start_putOn (v : Int) (values : List Int) :
    start (putOn v) values = (.ok (), values ++ [v]) := rfl

end Work

open Work in
/-- An operation as work on the list of the values. -/
def StackOp.work : StackOp → Work (Option Int)
  | push v => do
    putOn (v % 2 ^ 32)
    return none
  | pop => do
    require .pop
    return some (← takeOff)
  | peekTop => do
    require .peekTop
    return (← get).getLast?
  | peekSecond => do
    require .peekSecond
    return (← get).dropLast.getLast?
  | swap => do
    require .swap
    let a ← takeOff
    let b ← takeOff
    putOn a
    putOn b
    return none
  | dup => do
    require .dup
    let a ← takeOff
    putOn a
    putOn a
    return none
  | rotate => do
    require .rotate
    let a ← takeOff
    modify (a :: ·)
    return none
  | shuffle g => do
    modify fun values => (permute (g.draws (values.length - 1)).1 values.reverse).reverse
    return none
  | add => do
    require .add
    let a ← takeOff
    let b ← takeOff
    putOn ((b + a) % 2 ^ 32)
    return none
  | diff => do
    require .diff
    let a ← takeOff
    let b ← takeOff
    putOn |b - a|
    return none
  | inc => do
    require .inc
    let a ← takeOff
    putOn ((a + 1) % 2 ^ 32)
    return none
  | dec => do
    require .dec
    let a ← takeOff
    putOn (if 0 < a then a - 1 else a)
    return none

/-- The list after the work of some operations, each of which is set to what the one before it left. -/
def workAll (ops : List StackOp) (values : List Int) : List Int :=
  ops.foldl (fun values op => (op.work.start values).2) values

/-! ### The two accounts agree -/

/-- What an operation on the words tells, in values. -/
def valuesTold (told : Except Underflow (Option Word) × Stack) :
    Except Underflow (Option Int) × List Int :=
  (told.1.map (Option.map Word.value), told.2.held)

theorem value_pred (w : Word) :
    Word.value (if w = 0 then 0 else w - 1) = if 0 < w.value then w.value - 1 else w.value := by
  unfold Word.value
  rw [w.toNat_pred]
  split <;> omega

theorem Stack.held_shuffle (s : Stack) (g : Generator) :
    (s.shuffle g).1.held = (permute (g.draws (s.held.length - 1)).1 s.held.reverse).reverse := by
  rw [Stack.length_held]
  simp only [Stack.held, Stack.values, Stack.shuffle, List.reverse_reverse, map_permute]

namespace StackOp

/-- With too few words an operation fails, and leaves them. -/
theorem perform_of_short {op : StackOp} {use : StackUse} {s : Stack} (huse : op.use? = some use)
    (h : s.length < use.needs) : op.perform s = (.error ⟨use, s.length⟩, s) := by
  cases op with
  | push | shuffle => cases huse
  | pop | peekTop | dup | rotate | inc | dec =>
    cases huse
    obtain rfl : s = [] := List.length_eq_zero_iff.1 (Nat.lt_one_iff.1 h)
    rfl
  | peekSecond | swap | add | diff =>
    cases huse
    rcases s with _ | ⟨a, _ | ⟨b, s⟩⟩
    · rfl
    · rfl
    · simp only [StackUse.needs, List.length_cons] at h
      omega

/-- With enough words an operation answers. -/
theorem perform_of_enough {op : StackOp} {s : Stack} (h : op.needs ≤ s.length) :
    ∃ answer, (op.perform s).1 = .ok answer := by
  cases op with
  | push | shuffle => exact ⟨_, rfl⟩
  | pop | peekTop | dup | rotate | inc | dec =>
    obtain ⟨a, s, rfl⟩ := List.exists_cons_of_length_pos h
    exact ⟨_, rfl⟩
  | peekSecond | swap | add | diff =>
    rcases s with _ | ⟨a, _ | ⟨b, s⟩⟩
    · simp [needs, use?, StackUse.needs] at h
    · simp [needs, use?, StackUse.needs] at h
    · exact ⟨_, rfl⟩

/-- With too few values the work of an operation is broken off before it has done anything. -/
theorem work_of_short {op : StackOp} {use : StackUse} {values : List Int}
    (huse : op.use? = some use) (h : values.length < use.needs) :
    op.work.start values = (.error ⟨use, values.length⟩, values) := by
  cases op <;> cases huse <;> simp [work, h]

theorem exists_use_of_short {op : StackOp} {s : Stack} (h : s.length < op.needs) :
    ∃ use, op.use? = some use ∧ s.length < use.needs := by
  rw [needs] at h
  cases huse : op.use? with
  | none =>
    rw [huse] at h
    exact absurd h (Nat.not_lt_zero _)
  | some use =>
    rw [huse] at h
    exact ⟨use, rfl, h⟩

/-- **An operation on the words answers as the work on their values does**, and leaves the words of the
values that the work leaves. -/
theorem work_start (op : StackOp) (s : Stack) : op.work.start s.held = valuesTold (op.perform s) := by
  by_cases hshort : s.length < op.needs
  · obtain ⟨use, huse, hshort⟩ := exists_use_of_short hshort
    rw [perform_of_short huse hshort, work_of_short huse (by simpa using hshort), Stack.length_held]
    rfl
  · cases op with
    | push v => simp [work, perform, valuesTold, Stack.push, Except.map]
    | shuffle g => simp [work, perform, valuesTold, Stack.held_shuffle, Except.map]
    | pop | peekTop | dup | rotate | inc | dec =>
      obtain ⟨a, s, rfl⟩ := List.exists_cons_of_length_pos (Nat.le_of_not_lt hshort)
      simp [work, perform, valuesTold, Stack.changed, Stack.pop, Stack.popFor, Stack.peekTop, Stack.dup,
        Stack.rotate, Stack.inc, Stack.dec, StackUse.needs, Except.map, Stack.held_append,
        Word.value_one, value_pred]
    | peekSecond | swap | add | diff =>
      rcases s with _ | ⟨a, _ | ⟨b, s⟩⟩
      · simp [needs, use?, StackUse.needs] at hshort
      · simp [needs, use?, StackUse.needs] at hshort
      · have henough : ¬ s.length + 1 + 1 < 2 := by omega
        -- the two values are taken off one by one, so the list has to stay cut between them
        simp [-List.append_assoc, henough, work, perform, valuesTold, Stack.changed, Stack.peekSecond,
          Stack.swap, Stack.add, Stack.diff, StackUse.needs, Except.map]

/-- **An operation fails just if it needs more words than there are.** -/
theorem fails_iff {op : StackOp} {s : Stack} :
    (∃ u, (op.perform s).1 = .error u) ↔ s.length < op.needs := by
  constructor
  · rintro ⟨u, hfails⟩
    by_contra henough
    obtain ⟨answer, hanswer⟩ := perform_of_enough (Nat.le_of_not_lt henough)
    rw [hanswer] at hfails
    cases hfails
  · intro hshort
    obtain ⟨use, huse, hshort⟩ := exists_use_of_short hshort
    exact ⟨⟨use, s.length⟩, by rw [perform_of_short huse hshort]⟩

/-- **An operation that fails leaves everything as it was**, the words and the list of their values. It
says what it needed words for and how many there were. -/
theorem unchanged_of_fails {op : StackOp} {s : Stack} {u : Underflow}
    (h : (op.perform s).1 = .error u) :
    op.use? = some u.use ∧ u.depth = s.length ∧ (op.perform s).2 = s ∧
      (op.work.start s.held).2 = s.held := by
  obtain ⟨use, huse, hshort⟩ := exists_use_of_short (fails_iff.1 ⟨u, h⟩)
  have hperform := perform_of_short huse hshort
  rw [hperform] at h
  cases h
  rw [work_start, hperform]
  exact ⟨huse, rfl, rfl, rfl⟩

end StackOp

/-- **After any operations in a row the stack holds the values that their work leaves.** -/
theorem Stack.held_after (ops : List StackOp) :
    ∀ s : Stack, (s.after ops).held = workAll ops s.held := by
  induction ops with
  | nil => intro s; rfl
  | cons op ops ih =>
    intro s
    have hfirst : (op.work.start s.held).2 = (op.perform s).2.held := by
      rw [op.work_start]
      rfl
    simp only [Stack.after, workAll, List.foldl_cons, hfirst]
    exact ih _

/-! ### Arithmetic -/

namespace Stack

/-- **Sums are exact modulo `2 ^ 32`, and distances are exact.** -/
theorem arithmetic_of_two (a b : Word) (s : Stack) :
    ∃ sum distance, add (a :: b :: s) = .ok (sum :: s) ∧ sum.value = (b.value + a.value) % 2 ^ 32 ∧
      diff (a :: b :: s) = .ok (distance :: s) ∧ distance.value = |b.value - a.value| :=
  ⟨b + a, distance a b, rfl, Word.value_add b a, rfl, Word.value_distance a b⟩

/-- **Counting up is exact modulo `2 ^ 32`, and counting down stops at zero.** -/
theorem arithmetic_of_one (a : Word) (s : Stack) :
    ∃ up down, inc (a :: s) = .ok (up :: s) ∧ up.value = (a.value + 1) % 2 ^ 32 ∧
      dec (a :: s) = .ok (down :: s) ∧ down.toNat = a.toNat - 1 :=
  ⟨a + 1, if a = 0 then 0 else a - 1, rfl, Word.value_add a 1, rfl, a.toNat_pred⟩

/-- The ends, the length and the values of a stack, read from one list. -/
theorem views_agree (s : Stack) :
    s.top?.map Word.value = s.values.head? ∧ s.bottom?.map Word.value = s.values.getLast? ∧
      s.values.length = s.length ∧ s.held = s.values.reverse :=
  ⟨by simp [top?, values], by simp [bottom?, values], by simp [values], rfl⟩

end Stack

/-! ### The account of a stack -/

/-- **The invariant of a stack.** Let a stack be made from any integers and let any operations follow.
What it holds is what the same work on a list of unbounded integers leaves, and all of it lies in
`0, …, 2 ^ 32 - 1`; top, bottom, length and values tell the same; and a stack made from its values is the
same stack. The next operation answers as the work does. It fails just if it needs more words than there
are, and then the stack is as before, and so is the list that the work was set to. Sums are exact modulo
`2 ^ 32` and distances exact; counting up is exact modulo `2 ^ 32`, and counting down stops at zero. -/
theorem stack_values (initial : List Int) (ops : List StackOp) :
    let s := (Stack.ofInts initial).after ops
    s.held = workAll ops (initial.map (· % 2 ^ 32)).reverse ∧
    (∀ v ∈ workAll ops (initial.map (· % 2 ^ 32)).reverse, 0 ≤ v ∧ v < 2 ^ 32) ∧
    (s.top?.map Word.value = s.values.head? ∧ s.bottom?.map Word.value = s.values.getLast? ∧
      s.values.length = s.length ∧ s.held = s.values.reverse) ∧
    Stack.ofInts s.values = s ∧
    (∀ op : StackOp,
      op.work.start s.held = valuesTold (op.perform s) ∧
      ((∃ u, (op.perform s).1 = .error u) ↔ s.length < op.needs) ∧
      ∀ u, (op.perform s).1 = .error u →
        op.use? = some u.use ∧ u.depth = s.length ∧ (op.perform s).2 = s ∧
          (op.work.start s.held).2 = s.held) ∧
    (∀ a b rest, s = a :: b :: rest →
      ∃ sum distance, s.add = .ok (sum :: rest) ∧ sum.value = (b.value + a.value) % 2 ^ 32 ∧
        s.diff = .ok (distance :: rest) ∧ distance.value = |b.value - a.value|) ∧
    ∀ a rest, s = a :: rest →
      ∃ up down, s.inc = .ok (up :: rest) ∧ up.value = (a.value + 1) % 2 ^ 32 ∧
        s.dec = .ok (down :: rest) ∧ down.toNat = a.toNat - 1 := by
  intro s
  have hheld : s.held = workAll ops (initial.map (· % 2 ^ 32)).reverse := by
    rw [Stack.held_after, Stack.held_ofInts]
  refine ⟨hheld, ?_, s.views_agree, s.ofInts_values, fun op => ?_, fun a b rest hs => ?_,
    fun a rest hs => ?_⟩
  · rw [← hheld]
    exact s.mem_held_range
  · exact ⟨op.work_start s, StackOp.fails_iff, fun u => StackOp.unchanged_of_fails⟩
  · rw [hs]
    exact Stack.arithmetic_of_two a b rest
  · rw [hs]
    exact Stack.arithmetic_of_one a rest

end ChunkMachine
