/-!
# Numbers and words in columns

Listings line their fields up: numbers are filled with zeros or spaces on the left, words with
spaces on the right. A field that is already as wide as its column is printed as it is.
-/

namespace ChunkMachine.Text

/-- The digits of a number in base sixteen, in capitals. -/
def hex (n : Nat) : String := (String.ofList (Nat.toDigits 16 n)).toUpper

/-- Fill a text with a character on the left up to a width. -/
def padLeft (width : Nat) (fill : Char) (text : String) : String :=
  String.ofList (List.replicate (width - text.length) fill) ++ text

/-- Fill a text with spaces on the right up to a width. -/
def padRight (width : Nat) (text : String) : String :=
  text ++ String.ofList (List.replicate (width - text.length) ' ')

/-- An integer in decimal, filled with zeros between its sign and its digits. The sign counts in the
width. -/
def zeroFilled (width : Nat) (i : Int) : String :=
  if i < 0 then "-" ++ padLeft (width - 1) '0' (toString i.natAbs)
  else padLeft width '0' (toString i.natAbs)

/-- An integer in base sixteen, filled with zeros between its sign and its digits. -/
def zeroFilledHex (width : Nat) (i : Int) : String :=
  if i < 0 then "-" ++ padLeft (width - 1) '0' (hex i.natAbs) else padLeft width '0' (hex i.natAbs)

/-- An integer in decimal, filled with spaces before its sign. -/
def spaceFilled (width : Nat) (i : Int) : String := padLeft width ' ' (toString i)

end ChunkMachine.Text
