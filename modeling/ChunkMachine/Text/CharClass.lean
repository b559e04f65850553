/-!
# Classes of characters

A class of characters is given by the increasing list of the code points at which membership
changes: the characters from the first entry up to the second, which is no longer one, are members,
those up to the third are not, and so on.
-/

namespace ChunkMachine.Text

/-- The code points at which membership in a class changes, in increasing order. -/
abbrev CharClass := List Nat

/-- Is a character in a class? -/
def CharClass.has (changes : CharClass) (c : Char) : Bool :=
  (changes.takeWhile (· ≤ c.toNat)).length % 2 == 1

end ChunkMachine.Text
