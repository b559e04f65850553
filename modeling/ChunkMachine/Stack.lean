/-!
# The value stack

Values are unsigned 32-bit words. A stack is the list of its words, top first: this is the order in
which listings print it and in which the shuffle of `ChunkMachine.Stack.Shuffle` numbers it.

Every operation that looks at the stack says how many words it needs; with fewer it returns an
`Underflow` and no stack, so that a failed operation leaves the caller's stack as it was.
-/

namespace ChunkMachine

/-- A value on the stack. -/
abbrev Word := UInt32

/-- The word congruent to an integer modulo `2 ^ 32`. -/
def Word.ofInt (i : Int) : Word := UInt32.ofNat (i % 4294967296).toNat

/-- The largest word. -/
def Word.mask : Nat := 0xFFFFFFFF

/-- The words of a stack, top first. -/
abbrev Stack := List Word

/-! ### Underflow -/

/-- What a stack was asked for. -/
inductive StackUse where
  | pop | peekTop | peekSecond | swap | dup | rotate | add | diff | inc | dec | output
deriving DecidableEq

/-- How many words a use needs. -/
def StackUse.needs : StackUse → Nat
  | .peekSecond | .swap | .add | .diff => 2
  | _ => 1

/-- A use of a stack that holds too few words, with the number it holds. -/
structure Underflow where
  use : StackUse
  depth : Nat
deriving DecidableEq

/-- The wording of an underflow. The uses that need two words tell an empty stack from a stack of
one. -/
def Underflow.message (u : Underflow) : String :=
  match u.use with
  | .pop => "Can't pop an empty stack!"
  | .peekTop => "Can't read the top of an empty stack!"
  | .peekSecond => "Can't read the second value of a" ++ element ++ " stack!"
  | .swap => "Can't swap the top two elements on a" ++ element ++ " stack"
  | .dup => "Nothing on the stack to be duplicated!"
  | .rotate => "Can't send nonexistent value to the bottom of the stack!"
  | .add => "Cannot add the top values of a" ++ value ++ "."
  | .diff => "Cannot get the difference of the top two values of a" ++ value ++ "!"
  | .inc => "Cannot increment nonexistent value!"
  | .dec => "Cannot decrement nonexistent value!"
  | .output => "Cannot output nonexistent value!"
where
  element : String := if u.depth = 0 then "n empty" else " one-element"
  value : String := if u.depth = 0 then "n empty stack" else " one-value stack"

namespace Stack

/-! ### Reading and moving words -/

/-- The stack of a list of integers, top first, each taken modulo `2 ^ 32`. -/
def ofInts (values : List Int) : Stack := values.map Word.ofInt

/-- The top word. -/
def top? (s : Stack) : Option Word := s.head?

/-- The bottom word. -/
def bottom? (s : Stack) : Option Word := s.getLast?

/-- Put a word on top. -/
def push (w : Word) (s : Stack) : Stack := w :: s

/-- Take the top word off, for the given use. -/
def popFor (use : StackUse) : Stack → Except Underflow (Word × Stack)
  | [] => .error ⟨use, 0⟩
  | w :: s => .ok (w, s)

/-- Take the top word off. -/
def pop (s : Stack) : Except Underflow (Word × Stack) := popFor .pop s

/-- Read the top word. -/
def peekTop : Stack → Except Underflow Word
  | [] => .error ⟨.peekTop, 0⟩
  | w :: _ => .ok w

/-- Read the word below the top. -/
def peekSecond : Stack → Except Underflow Word
  | _ :: w :: _ => .ok w
  | s => .error ⟨.peekSecond, s.length⟩

/-- Exchange the two top words. -/
def swap : Stack → Except Underflow Stack
  | a :: b :: s => .ok (b :: a :: s)
  | s => .error ⟨.swap, s.length⟩

/-- Push a copy of the top word. -/
def dup : Stack → Except Underflow Stack
  | [] => .error ⟨.dup, 0⟩
  | w :: s => .ok (w :: w :: s)

/-- Send the top word to the bottom. -/
def rotate : Stack → Except Underflow Stack
  | [] => .error ⟨.rotate, 0⟩
  | w :: s => .ok (s ++ [w])

/-! ### Arithmetic -/

/-- Replace the two top words by their sum modulo `2 ^ 32`. -/
def add : Stack → Except Underflow Stack
  | a :: b :: s => .ok ((b + a) :: s)
  | s => .error ⟨.add, s.length⟩

/-- The distance between two words. -/
def distance (a b : Word) : Word := if a ≤ b then b - a else a - b

/-- Replace the two top words by the distance between them. -/
def diff : Stack → Except Underflow Stack
  | a :: b :: s => .ok (distance a b :: s)
  | s => .error ⟨.diff, s.length⟩

/-- Add one to the top word, modulo `2 ^ 32`. -/
def inc : Stack → Except Underflow Stack
  | [] => .error ⟨.inc, 0⟩
  | w :: s => .ok ((w + 1) :: s)

/-- Subtract one from the top word, unless it is zero. -/
def dec : Stack → Except Underflow Stack
  | [] => .error ⟨.dec, 0⟩
  | w :: s => .ok ((if w = 0 then 0 else w - 1) :: s)

/-! ### Text -/

/-- The words in brackets, top first: `[3, 2, 1]`. -/
def bracketed (s : Stack) : String :=
  "[" ++ ", ".intercalate (s.map fun w => toString w.toNat) ++ "]"

/-- The text that shows a stack as a value. -/
def display (s : Stack) : String := "ValueStack(" ++ bracketed s ++ ")"

end Stack

end ChunkMachine
