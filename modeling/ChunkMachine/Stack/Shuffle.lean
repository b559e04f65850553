import ChunkMachine.Random.Generator
import ChunkMachine.Stack

/-!
# The shuffle

A list is shuffled from its last position to its second: position `i` is exchanged with a position
drawn from `0, …, i`. Drawing the positions and moving the values are kept apart: `permute` is the
effect of given draws on a list of anything, and `Stack.shuffle` applies it to the draws of a
generator. The draws depend on the size of the stack alone, never on its words.
-/

namespace ChunkMachine

/-- Exchange position `i` with the first draw, position `i - 1` with the second, and so on. A position
outside the array changes nothing. -/
def permuteFrom {α : Type} : Nat → List Nat → Array α → Array α
  | _, [], xs => xs
  | i, d :: ds, xs => permuteFrom (i - 1) ds (xs.swapIfInBounds i d)

/-- The effect of the given draws on a list, from its last position to its second. -/
def permute {α : Type} (draws : List Nat) (xs : List α) : List α :=
  (permuteFrom (xs.length - 1) draws xs.toArray).toList

/-- Bring the words of a stack into an order drawn from the generator. -/
def Stack.shuffle (s : Stack) (g : Generator) : Stack × Generator :=
  let (draws, g) := g.draws (s.length - 1)
  (permute draws s, g)

@[simp] theorem size_permuteFrom {α : Type} (ds : List Nat) :
    ∀ (i : Nat) (xs : Array α), (permuteFrom i ds xs).size = xs.size := by
  induction ds with
  | nil => intro i xs; rfl
  | cons d ds ih => intro i xs; simp [permuteFrom, ih]

@[simp] theorem length_permute {α : Type} (ds : List Nat) (xs : List α) :
    (permute ds xs).length = xs.length := by
  simp [permute]

/-- A shuffle keeps the number of words. -/
@[simp] theorem Stack.length_shuffle (s : Stack) (g : Generator) :
    (s.shuffle g).1.length = s.length := by
  simp [Stack.shuffle]

end ChunkMachine
