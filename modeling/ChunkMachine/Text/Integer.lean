import ChunkMachine.Text.Digit
import ChunkMachine.Text.Space

/-!
# Reading integers

An integer is written with the decimal digits of any script, single underscores between them, a sign
before and white space around. `readDecimal` reads this form. `readLiteral` also takes the bases
sixteen, eight and two, announced by `0x`, `0o` and `0b`, and in return refuses a decimal number with
a leading zero unless it is zero.

Decimal numbers have a bounded length, both when they are read and when they are written. A number in
another base may be longer, so not every integer that is read is `writable`.
-/

namespace ChunkMachine.Text

/-- The most decimal digits that are read or written. -/
def maxDecimalDigits : Nat := 4300

/-- A character as plain white space or a plain digit if it is one in another script; `none` for any
other character beyond ASCII. -/
def plainForm (c : Char) : Option Char :=
  if c.toNat < 128 then some c
  else if isSpace c then some ' '
  else (digitValue? c).map fun d => Char.ofNat (48 + d)

/-- White space around a number: the blanks of ASCII, without its four separators. -/
def isNumberSpace (c : Char) : Bool := c == ' ' || (9 ≤ c.toNat && c.toNat ≤ 13)

/-- The value of a plain digit or letter, if it is one in the base. -/
def valueIn (base : Nat) (c : Char) : Option Nat :=
  let v? :=
    if '0' ≤ c ∧ c ≤ '9' then some (c.toNat - 48)
    else if 'a' ≤ c ∧ c ≤ 'z' then some (c.toNat - 87)
    else if 'A' ≤ c ∧ c ≤ 'Z' then some (c.toNat - 55)
    else none
  v?.filter (· < base)

/-- The digits of a number: at least one, with single underscores between them. -/
def readDigits (base : Nat) : List Char → Option (List Nat)
  | [] => none
  | [c] => (valueIn base c).map ([·])
  | c :: '_' :: cs => do return (← valueIn base c) :: (← readDigits base cs)
  | c :: cs => do return (← valueIn base c) :: (← readDigits base cs)

/-- The number with the given digits. -/
def ofDigits (base : Nat) (digits : List Nat) : Nat := digits.foldl (fun n d => base * n + d) 0

/-- A number in base ten, of bounded length. -/
def readBaseTen (cs : List Char) : Option Nat := do
  let digits ← readDigits 10 cs
  if digits.length ≤ maxDecimalDigits then some (ofDigits 10 digits) else none

/-- A number after a base mark, one underscore being allowed between them. -/
def readAfterMark (base : Nat) : List Char → Option Nat
  | '_' :: cs => (readDigits base cs).map (ofDigits base)
  | cs => (readDigits base cs).map (ofDigits base)

/-- A number whose base is announced, or ten. -/
def readAnyBase : List Char → Option Nat
  | '0' :: mark :: cs =>
    if mark == 'x' || mark == 'X' then readAfterMark 16 cs
    else if mark == 'o' || mark == 'O' then readAfterMark 8 cs
    else if mark == 'b' || mark == 'B' then readAfterMark 2 cs
    else (readBaseTen ('0' :: mark :: cs)).filter (· == 0)
  | cs => readBaseTen cs

/-- An integer: white space, a sign, a number as `read` reads it, white space. -/
def readSigned (read : List Char → Option Nat) (text : String) : Option Int := do
  let plain ← text.toList.mapM plainForm
  let trimmed := ((plain.dropWhile isNumberSpace).reverse.dropWhile isNumberSpace).reverse
  match trimmed with
  | '-' :: cs => (read cs).map fun n => -(n : Int)
  | '+' :: cs => (read cs).map Int.ofNat
  | cs => (read cs).map Int.ofNat

/-- Read an integer in base ten. -/
def readDecimal (text : String) : Option Int := readSigned readBaseTen text

/-- Read an integer whose base may be announced. -/
def readLiteral (text : String) : Option Int := readSigned readAnyBase text

/-- Is an integer short enough to be written in base ten? -/
def writable (i : Int) : Bool := i.natAbs < Nat.pow 10 maxDecimalDigits

end ChunkMachine.Text
