import ChunkMachine.Proofs.Simulation

/-!
# What a program sees of its input

A program reads its input byte by byte, and after the last byte it reads zeros. So it sees the input as
a stream that goes on with zeros for ever, and of this stream it sees as much as it has read. Inputs
that are the same stream up to there cannot be told apart, whatever their lengths: one run may be past
the end of its input while the other still reads bytes that happen to be zero.

## What is proved

* `read_drop`: what a read makes of a buffer, in the middle of the input and at its end alike.
* `fed_rationed`: two buffers that hold the same stream for some reads are related for these reads.
* `sees_only_reads`: runs on two such inputs agree, and each has taken the bytes that were read.
-/

namespace ChunkMachine

namespace Port

/-- A buffer from which the first `d` bytes of an input have been read gives the next byte, if there is
one, and then one more has been read. -/
theorem read_drop (x : List UInt8) (d : Nat) (written : List UInt8) :
    Port.read ⟨.buffer (x.drop d) written, []⟩ =
      (.ok x[d]?, ⟨.buffer (x.drop (d + 1)) written, []⟩) := by
  by_cases hd : d < x.length
  · rw [List.drop_eq_getElem_cons hd, List.getElem?_eq_getElem hd]
    rfl
  · have hend : x.length ≤ d := Nat.le_of_not_lt hd
    rw [List.drop_eq_nil_of_le hend, List.drop_eq_nil_of_le (Nat.le_succ_of_le hend),
      List.getElem?_eq_none hend]
    rfl

/-- The word that is pushed for a byte of the input, or for its end. -/
theorem wordRead_getElem? (x : List UInt8) (d : Nat) : wordRead x[d]? = (x.getD d 0).toUInt32 := by
  rw [List.getD_eq_getElem?_getD]
  cases x[d]? <;> rfl

/-- Two buffers from which all but the last `left` of `total` reads of the inputs `x` and `y` have been
made, and to which the same was written. -/
def Fed (x y : List UInt8) (total left : Nat) (p q : Port) : Prop :=
  left ≤ total ∧ ∃ written,
    p = ⟨.buffer (x.drop (total - left)) written, []⟩ ∧
    q = ⟨.buffer (y.drop (total - left)) written, []⟩

/-- Buffers on inputs that agree for `total` reads cannot be told apart by what is left of these. -/
theorem fed_rationed {x y : List UInt8} {total : Nat}
    (h : ∀ j < total, x.getD j 0 = y.getD j 0) : Rationed (Fed x y total) where
  read {n p q} hfed := by
    obtain ⟨hle, written, rfl, rfl⟩ := hfed
    have hstep : total - (n + 1) + 1 = total - n := by omega
    rw [read_drop, read_drop, hstep]
    constructor
    · simp only [Except.map, wordRead_getElem?]
      rw [h _ (by omega)]
    · exact ⟨Nat.le_of_succ_le hle, written, rfl, rfl⟩
  write {n p q} w hfed := by
    obtain ⟨hle, written, rfl, rfl⟩ := hfed
    exact ⟨hle, w.toUInt8 :: written, rfl, rfl⟩

end Port

namespace Engine

/-- A fresh engine that reads from a buffer. -/
def onBuffer (program : Program) (seed : Int) (tracing : Bool) (input : List UInt8) : Engine :=
  start program (.ofBuffer input) seed tracing

/-- Two engines that agree in all but the input that is left to them: in the program and its flags, the
status with the recorded fault, the current chunk, the number of steps, the stack, the generator and
all output. -/
def AgreeButInput (e e' : Engine) : Prop := e.Like (fun p q => p.output = q.output) e'

/-- Runs that read the same stream agree, and what is left of each input is what was not read. -/
theorem after_fed (program : Program) (seed : Int) (tracing : Bool) (k : Nat) {x y : List UInt8}
    (h : ∀ j < (onBuffer program seed tracing x).readsWithin k, x.getD j 0 = y.getD j 0) :
    ((onBuffer program seed tracing x).after k).Like
      (Port.Fed x y ((onBuffer program seed tracing x).readsWithin k) 0)
      ((onBuffer program seed tracing y).after k) := by
  refine after_within (Port.fed_rationed h) k ⟨rfl, ⟨rfl, rfl, ?_⟩, rfl, rfl, rfl⟩
  rw [Nat.zero_add]
  refine ⟨Nat.le_refl _, [], ?_, ?_⟩ <;> rw [Nat.sub_self] <;> rfl

/-- Engines on buffers from which the same number of bytes was read agree in all else. -/
theorem agreeButInput_of_fed {x y : List UInt8} {total : Nat} {e e' : Engine}
    (h : e.Like (Port.Fed x y total 0) e') :
    e.AgreeButInput e' ∧ e.port.unread = x.drop total ∧ e'.port.unread = y.drop total := by
  obtain ⟨-, written, hx, hy⟩ := h.machine.port
  have houtput : e.machine.port.output = e'.machine.port.output := by
    rw [hx, hy]
    rfl
  refine ⟨⟨h.code, ⟨h.machine.stack, h.machine.generator, houtput⟩, h.status, h.current, h.steps⟩,
    ?_, ?_⟩
  · rw [port, hx]
    rfl
  · rw [port, hy]
    rfl

/-- Zeros after an input do not change the stream. -/
theorem getD_append_zeros (x : List UInt8) (n j : Nat) :
    (x ++ List.replicate n 0).getD j 0 = x.getD j 0 := by
  simp only [List.getD_eq_getElem?_getD, List.getElem?_append, List.getElem?_replicate]
  split
  · rfl
  · rename_i hj
    rw [List.getElem?_eq_none (Nat.le_of_not_lt hj)]
    split <;> rfl

/-- **A program sees its input as a stream followed by zeros, and only as far as it reads.** Take `k`
steps on the input `x`, and let `y` be an input of any length that is the same stream as far as these
steps read. Then the `k` steps on `y` lead to an engine that agrees in all but the input that is left,
and on either input just the bytes that were read are gone. In particular, zeros after the input change
nothing but what is left of it. -/
theorem sees_only_reads (program : Program) (seed : Int) (tracing : Bool) (k : Nat)
    (x : List UInt8) :
    (∀ y : List UInt8,
      (∀ j < (onBuffer program seed tracing x).readsWithin k, x.getD j 0 = y.getD j 0) →
      ((onBuffer program seed tracing x).after k).AgreeButInput
          ((onBuffer program seed tracing y).after k) ∧
        ((onBuffer program seed tracing x).after k).port.unread =
          x.drop ((onBuffer program seed tracing x).readsWithin k) ∧
        ((onBuffer program seed tracing y).after k).port.unread =
          y.drop ((onBuffer program seed tracing x).readsWithin k)) ∧
    ∀ n : Nat,
      ((onBuffer program seed tracing x).after k).AgreeButInput
        ((onBuffer program seed tracing (x ++ List.replicate n 0)).after k) := by
  constructor
  · intro y h
    exact agreeButInput_of_fed (after_fed program seed tracing k h)
  · intro n
    have hzeros : ∀ j < (onBuffer program seed tracing x).readsWithin k,
        x.getD j 0 = (x ++ List.replicate n 0).getD j 0 := fun j _ => (getD_append_zeros x n j).symm
    exact (agreeButInput_of_fed (after_fed program seed tracing k hzeros)).1

/-- A chunk that reads three times and goes back to itself for a zero. -/
def readingOn : Program := ⟨#[#v[.read, .read, .write, .read, .nop]], by simp⟩

/-- Two steps read six times. The input that ends after its first byte and the one that goes on with
zeros and has another byte after them lead to the same stack and the same output, and that other byte is
left. -/
theorem sees_only_reads_past_end :
    (onBuffer readingOn 0 false [0]).readsWithin 2 = 6 ∧
    (∀ j < (onBuffer readingOn 0 false [0]).readsWithin 2,
      [(0 : UInt8)].getD j 0 = [0, 0, 0, 0, 0, 0, 9].getD j 0) ∧
    ((onBuffer readingOn 0 false [0]).after 2).status = .running ∧
    ((onBuffer readingOn 0 false [0]).after 2).stack =
      ((onBuffer readingOn 0 false [0, 0, 0, 0, 0, 0, 9]).after 2).stack ∧
    ((onBuffer readingOn 0 false [0, 0, 0, 0, 0, 0, 9]).after 2).port.unread = [9] := by
  have hreads : (onBuffer readingOn 0 false [0]).readsWithin 2 = 6 := by decide +kernel
  have hstream : ∀ j < (onBuffer readingOn 0 false [0]).readsWithin 2,
      [(0 : UInt8)].getD j 0 = [0, 0, 0, 0, 0, 0, 9].getD j 0 := by
    rw [hreads]
    decide
  obtain ⟨hagree, -, hleft⟩ := (sees_only_reads readingOn 0 false 2 [0]).1 _ hstream
  rw [hreads] at hleft
  exact ⟨hreads, hstream, rfl, hagree.machine.stack, hleft⟩

end Engine

end ChunkMachine
