import ChunkMachine.Options
import ChunkMachine.Text.Columns

/-!
# Usage and help

The usage of a command is one line if it fits into the page; otherwise switches and operands are put
on lines of their own, indented to the end of the command's name. The help adds the description and a
table of operands and of switches, with the explanations in a second column.
-/

namespace ChunkMachine.Options

/-- The width of the page. -/
def pageWidth : Nat := 78

/-- The widest first column of a help table, with its margins. -/
def maxColumn : Nat := 24

/-- The placeholder for the value of a switch. -/
def Switch.placeholder (s : Switch) : String := s.key.toUpper

/-- A spelling with the placeholder for its value. -/
def Switch.form (s : Switch) (spelling : String) : String :=
  if s.effect.takesValue then spelling ++ " " ++ s.placeholder else spelling

/-- A switch in the usage. -/
def Switch.usage (s : Switch) : String := "[" ++ s.form (s.spellings.headD "") ++ "]"

/-- An operand in the usage. -/
def Operand.usage (o : Operand) : String :=
  match o.arity with
  | .one => o.name
  | .optional => "[" ++ o.name ++ "]"
  | .onward => o.name ++ " ..."

/-- Fill lines with parts: a part goes to the next line if it does not fit and is not the first. The
line being filled has the given length and parts, last first. -/
def fillLines (width indent : Nat) : (used : Nat) → (line : List String) → List String →
    List (List String)
  | _, [], [] => []
  | _, line, [] => [line.reverse]
  | used, line, part :: parts =>
    if width < used + 1 + part.length ∧ line ≠ [] then
      line.reverse :: fillLines width indent (indent - 1 + part.length + 1) [part] parts
    else fillLines width indent (used + part.length + 1) (part :: line) parts

/-- The words of a text, put on lines of a width. -/
def wrapText (width : Nat) (text : String) : List String :=
  let words := Text.splitSpaces [] text.toList
  match words with
  | [] => []
  | word :: words =>
    (fillLines width 0 word.length [word] words).map (" ".intercalate ·)

/-- Spaces. -/
def margin (n : Nat) : String := String.ofList (List.replicate n ' ')

namespace Spec

/-- The usage of a command. -/
def usage (s : Spec) : String :=
  let switches := s.switches.map Switch.usage
  let operands := s.operands.map Operand.usage
  let lead := "usage: "
  let line := lead ++ " ".intercalate (s.command :: switches ++ operands)
  if line.length ≤ pageWidth then line ++ "\n"
  else
    let indent := lead.length + s.command.length + 1
    let first := fillLines pageWidth indent (lead.length - 1) [] (s.command :: switches)
    let second := fillLines pageWidth indent (indent - 1) [] operands
    let lines := (first ++ second).map (" ".intercalate ·)
    lead ++ ("\n" ++ margin indent).intercalate lines ++ "\n"

/-- The rows of the help tables: operands and switches with their explanations. -/
def operandRows (s : Spec) : List (String × String) := s.operands.map fun o => (o.name, o.help)

/-- The rows of the switches. -/
def switchRows (s : Spec) : List (String × String) :=
  s.switches.map fun w => (", ".intercalate (w.spellings.map w.form), w.help)

/-- Where the second column of the tables starts. -/
def helpColumn (s : Spec) : Nat :=
  let widths := (s.operandRows ++ s.switchRows).map fun row => row.1.length
  min (widths.foldl max 0 + 4) maxColumn

/-- One row of a table. A first column that is too wide stands on a line of its own. -/
def tableRow (column : Nat) (row : String × String) : String :=
  let (head, help) := row
  match wrapText (pageWidth - column) help with
  | [] => margin 2 ++ head ++ "\n"
  | first :: more =>
    let opening :=
      if head.length + 4 ≤ column then margin 2 ++ Text.padRight (column - 4) head ++ margin 2
      else margin 2 ++ head ++ "\n" ++ margin column
    opening ++ first ++ "\n" ++ String.join (more.map fun line => margin column ++ line ++ "\n")

/-- A table with its heading, or nothing if it has no rows. -/
def table (column : Nat) (heading : String) (rows : List (String × String)) : String :=
  if rows.isEmpty then ""
  else "\n" ++ heading ++ ":\n" ++ String.join (rows.map (tableRow column))

/-- The help of a command. -/
def help (s : Spec) : String :=
  s.usage ++ (if s.description.isEmpty then "" else "\n" ++ s.description ++ "\n") ++
    table s.helpColumn "positional arguments" s.operandRows ++
    table s.helpColumn "options" s.switchRows

end Spec

/-- The switch that asks for help. -/
def helpSwitch : Switch :=
  { spellings := ["-h", "--help"]
    key := "help"
    effect := .showHelp
    help := "show this help message and exit" }

end ChunkMachine.Options
