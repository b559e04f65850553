/-!
# The random generator

The shuffle draws its numbers from a twisted generalised feedback shift register over 624 words of
32 bits (period `2 ^ 19937 - 1`), keyed by an integer seed of any size. `next` gives the next word,
`bits k` a number of `k` bits and `below n` a number less than `n`.

## The bound on the tries

`below n` draws numbers with as many bits as `n` has until one is below `n`. As the leading bit of `n`
is set, so is that of a number that is not below it, and this is the top bit of the last word that the
number is made of. The top bits of the words form a sequence of maximal period over 19937 bits, of which
the period is prime, and so do those of every second, every third word and so on. No run of ones in such
a sequence is longer than 19937, so that the bound of `maxTries` is not reached. That the period is
maximal is known of this generator and is not proved here. Nothing else rests on it: `below_spec` says
what `below` gives in both cases.
-/

namespace ChunkMachine

/-- The state of the generator: its words, and the position of the next one to hand out. -/
structure Generator where
  words : Array UInt32
  position : Nat

namespace Generator

/-- The number of words of the state. -/
def size : Nat := 624

/-! ### Keying -/

/-- A word mixed with its own leading bits. -/
def fold (w : UInt32) : UInt32 := w ^^^ (w >>> 30)

/-- The state before keying, grown from a fixed word. -/
def plain : Array UInt32 :=
  ((List.range (size - 1)).foldl
    (fun (acc : Array UInt32 × UInt32) i =>
      let w := 1812433253 * fold acc.2 + UInt32.ofNat (i + 1)
      (acc.1.push w, w))
    (#[19650218], 19650218)).1

/-- The words of a natural number, least significant first; `0` has one word. -/
def keyOf (n : Nat) : List UInt32 :=
  if _h : n < 4294967296 then [UInt32.ofNat n]
  else UInt32.ofNat (n % 4294967296) :: keyOf (n / 4294967296)
termination_by n
decreasing_by omega

/-- Where keying stands: the words, and the positions in the state and in the key. -/
structure Keying where
  words : Array UInt32
  position : Nat
  keyPosition : Nat

/-- Store a word at the current position and move on, wrapping around past the last word. -/
def Keying.store (k : Keying) (w : UInt32) (keyPosition : Nat) : Keying :=
  let words := k.words.setIfInBounds k.position w
  if k.position + 1 < size then ⟨words, k.position + 1, keyPosition⟩
  else ⟨words.setIfInBounds 0 w, 1, keyPosition⟩

/-- The word before the current position, folded. -/
def Keying.before (k : Keying) : UInt32 := fold (k.words.getD (k.position - 1) 0)

/-- Mix one word of the key into the state. -/
def Keying.absorb (key : Array UInt32) (k : Keying) : Keying :=
  let w := (k.words.getD k.position 0 ^^^ (k.before * 1664525)) + key.getD k.keyPosition 0 +
    UInt32.ofNat k.keyPosition
  k.store w (if k.keyPosition + 1 < key.size then k.keyPosition + 1 else 0)

/-- Mix the position into the state, once the key is absorbed. -/
def Keying.spread (k : Keying) : Keying :=
  k.store ((k.words.getD k.position 0 ^^^ (k.before * 1566083941)) - UInt32.ofNat k.position)
    k.keyPosition

/-- The state keyed by the words of a number. -/
def ofKey (key : Array UInt32) : Generator :=
  let absorbed := Nat.repeat (Keying.absorb key) (max size key.size) ⟨plain, 1, 0⟩
  let spread := Nat.repeat Keying.spread (size - 1) absorbed
  ⟨spread.words.setIfInBounds 0 0x80000000, size⟩

/-- The generator of a seed; a seed and its negative give the same one. -/
def ofSeed (seed : Int) : Generator := ofKey (keyOf seed.natAbs).toArray

/-! ### Words -/

/-- Replace one word of the state by its successor. -/
def twistAt (words : Array UInt32) (i : Nat) : Array UInt32 :=
  let y := (words.getD i 0 &&& 0x80000000) ||| (words.getD ((i + 1) % size) 0 &&& 0x7FFFFFFF)
  let flip : UInt32 := if y &&& 1 = 0 then 0 else 0x9908B0DF
  words.setIfInBounds i (words.getD ((i + 397) % size) 0 ^^^ (y >>> 1) ^^^ flip)

/-- Replace every word of the state by its successor. -/
def twist (words : Array UInt32) : Array UInt32 := (List.range size).foldl twistAt words

/-- The word handed out for a word of the state. -/
def temper (w : UInt32) : UInt32 :=
  let a := w ^^^ (w >>> 11)
  let b := a ^^^ ((a <<< 7) &&& 0x9D2C5680)
  let c := b ^^^ ((b <<< 15) &&& 0xEFC60000)
  c ^^^ (c >>> 18)

/-- The next word. -/
def next (g : Generator) : UInt32 × Generator :=
  if g.position < size then
    (temper (g.words.getD g.position 0), ⟨g.words, g.position + 1⟩)
  else
    let words := twist g.words
    (temper (words.getD 0 0), ⟨words, 1⟩)

/-! ### Bounded numbers -/

/-- The number of binary digits of a number. -/
def bitLength (n : Nat) : Nat := if n = 0 then 0 else n.log2 + 1

/-- The next words as one number: `whole` of them in full, the least significant first, and above them
the `leading` leading bits of one more. -/
def joined : (whole leading : Nat) → Generator → Nat × Generator
  | 0, leading, g =>
    let (w, g) := g.next
    (w.toNat >>> (32 - leading), g)
  | whole + 1, leading, g =>
    let (w, g) := g.next
    let (high, g) := joined whole leading g
    (w.toNat + 4294967296 * high, g)

/-- A number of `k` bits, of which there must be one. -/
def bits (k : Nat) (g : Generator) : Nat × Generator := joined ((k - 1) / 32) ((k - 1) % 32 + 1) g

/-- The first number below `n` among the next `tries` numbers of `k` bits. -/
def firstBelow (n k : Nat) : (tries : Nat) → Generator → Option (Nat × Generator)
  | 0, _ => none
  | tries + 1, g =>
    let (d, g) := g.bits k
    if d < n then some (d, g) else firstBelow n k tries g

/-- How many numbers are drawn at most for one that is small enough. -/
def maxTries : Nat := 19938

/-- A number below `n`, which must be positive; `0` if no number that is drawn is small enough. -/
def below (n : Nat) (g : Generator) : Nat × Generator :=
  (firstBelow n (bitLength n) maxTries g).getD (0, g)

/-- One number below each of `n + 1, n, …, 2`, in this order. -/
def draws : Nat → Generator → List Nat × Generator
  | 0, g => ([], g)
  | n + 1, g =>
    let (d, g) := g.below (n + 2)
    let (ds, g) := draws n g
    (d :: ds, g)

/-- The generator after so many numbers of `k` bits. -/
def skip (k : Nat) : (count : Nat) → Generator → Generator
  | 0, g => g
  | count + 1, g => skip k count (g.bits k).2

/-- Which number is the first one below `n`, and when there is none. -/
theorem firstBelow_spec (n k : Nat) : ∀ (tries : Nat) (g : Generator),
    (∃ i < tries, firstBelow n k tries g = some ((skip k i g).bits k) ∧
      ((skip k i g).bits k).1 < n ∧ ∀ j < i, n ≤ ((skip k j g).bits k).1) ∨
    firstBelow n k tries g = none ∧ ∀ j < tries, n ≤ ((skip k j g).bits k).1
  | 0, _ => .inr ⟨rfl, nofun⟩
  | tries + 1, g => by
    by_cases hd : (g.bits k).1 < n
    · exact .inl ⟨0, Nat.succ_pos _, by simp [firstBelow, hd, skip], hd, nofun⟩
    · -- the number that is drawn is too large, and the others are drawn from the generator after it
      have hrest : firstBelow n k (tries + 1) g = firstBelow n k tries (g.bits k).2 := by
        simp [firstBelow, hd]
      have hlarge (m : Nat) (h : ∀ j < m, n ≤ ((skip k j (g.bits k).2).bits k).1) :
          ∀ j < m + 1, n ≤ ((skip k j g).bits k).1
        | 0, _ => Nat.le_of_not_lt hd
        | j + 1, hj => h j (Nat.lt_of_succ_lt_succ hj)
      rw [hrest]
      rcases firstBelow_spec n k tries (g.bits k).2 with ⟨i, hi, hsome, hlt, hall⟩ | ⟨hnone, hall⟩
      · exact .inl ⟨i + 1, Nat.succ_lt_succ hi, hsome, hlt, hlarge i hall⟩
      · exact .inr ⟨hnone, hlarge tries hall⟩

/-- **What `below` gives**: the first number below `n` of those that are drawn, with the generator after
it, or else `0`, if `maxTries` numbers of as many bits as `n` are all too large. -/
theorem below_spec (n : Nat) (g : Generator) :
    let drawn (i : Nat) := (skip (bitLength n) i g).bits (bitLength n)
    (∃ i < maxTries, g.below n = drawn i ∧ (drawn i).1 < n ∧ ∀ j < i, n ≤ (drawn j).1) ∨
      g.below n = (0, g) ∧ ∀ j < maxTries, n ≤ (drawn j).1 := by
  rcases firstBelow_spec n (bitLength n) maxTries g with ⟨i, hi, hsome, hlt, hall⟩ | ⟨hnone, hall⟩
  · exact .inl ⟨i, hi, by simp [below, hsome], hlt, hall⟩
  · exact .inr ⟨by simp [below, hnone], hall⟩

theorem below_lt {n : Nat} (hn : 0 < n) (g : Generator) : (g.below n).1 < n := by
  rcases below_spec n g with ⟨i, -, hbelow, hlt, -⟩ | ⟨hbelow, -⟩
  · rwa [hbelow]
  · rwa [hbelow]

@[simp] theorem length_draws : ∀ (n : Nat) (g : Generator), (g.draws n).1.length = n
  | 0, _ => rfl
  | n + 1, g => by simp [draws, length_draws n]

end Generator

end ChunkMachine
