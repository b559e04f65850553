import ChunkMachine.Options.Usage
import ChunkMachine.Text.Columns

/-!
# Debugger commands

A command has a name, a description and further names. The commands of the debugger are listed here
in the order in which help shows them, together with the arguments that each of them takes.
-/

namespace ChunkMachine.Debugger

open Options

/-- What a command does. -/
inductive Action where
  | help | load | reset | step | resume | breakpoints | stack | info | listing | aliases | exit
  /-- Nothing has been provided for the command. -/
  | missing
deriving DecidableEq

/-- A command. -/
structure Command where
  name : String
  description : String
  aliases : List String := []
  action : Action
deriving DecidableEq

/-- The line of a command in the help. -/
def Command.helpLine (c : Command) : String :=
  Text.padRight 10 c.name ++ " " ++ c.description ++
    if c.aliases.isEmpty then "" else " (" ++ ", ".intercalate c.aliases ++ ")"

/-- Does a name mean the command? -/
def Command.answersTo (c : Command) (name : String) : Bool := c.name = name || c.aliases.contains name

/-- The commands that a debugger knows. -/
structure Registry where
  commands : List Command
  /-- Can the help command see the others? -/
  helpBound : Bool := true
deriving DecidableEq

/-- The command that a name means; of several, the last. -/
def Registry.find? (r : Registry) (name : String) : Option Command :=
  r.commands.reverse.find? (·.answersTo name)

/-- The help command. -/
def helpCommand : Command := ⟨"help", "List debugger commands", ["?"], .help⟩

/-- The commands of the debugger. -/
def registry : Registry :=
  { commands :=
      [helpCommand,
       ⟨"load", "Load an XRF program and reset the VM", ["file"], .load⟩,
       ⟨"reset", "Restart the loaded program with a fresh stack and visited flags", [], .reset⟩,
       ⟨"step", "Execute N chunks (default 1)", ["s", "next"], .step⟩,
       ⟨"continue", "Run until halt, error or breakpoint", ["c", "cont"], .resume⟩,
       ⟨"break", "Manage chunk breakpoints", ["bp"], .breakpoints⟩,
       ⟨"stack", "Print the value stack, top first", ["bt"], .stack⟩,
       ⟨"info", "Show VM state", ["status"], .info⟩,
       ⟨"disasm", "List chunks (default: around the current chunk)", ["dis"], .listing⟩,
       ⟨"alias", "Define or list command aliases", [], .aliases⟩,
       ⟨"exit", "Exit the debugger", ["quit", "q"], .exit⟩] }

/-! ### Arguments -/

/-- The arguments of `load`. -/
def loadSpec : Spec := { command := "load", operands := [{ name := "path", arity := .one }] }

/-- The arguments of `step`. -/
def stepSpec : Spec :=
  { command := "step"
    operands := [{ name := "count", arity := .optional, reading := .decimal }] }

/-- The arguments of `continue`. -/
def resumeSpec : Spec :=
  { command := "continue"
    switches := [{ spellings := ["--max"], key := "max", effect := .store .decimal }] }

/-- The arguments of `disasm`. -/
def listingSpec : Spec :=
  { command := "disasm"
    operands :=
      [{ name := "start", arity := .optional, reading := .literal },
       { name := "count", arity := .optional, reading := .decimal }] }

/-- The arguments of `alias`. -/
def aliasSpec : Spec :=
  { command := "alias"
    operands :=
      [{ name := "alias", arity := .optional }, { name := "command", arity := .optional }] }

/-- The arguments of `break`: a subcommand and its own arguments. -/
def breakSpec : Spec :=
  { command := "break", operands := [{ name := "subcmd", arity := .onward }] }

/-- The subcommands of `break`, and whether each takes a chunk. -/
def breakSubcommands : List (String × Bool) :=
  [("add", true), ("clear", true), ("clearall", false), ("list", false)]

/-- The arguments of a subcommand of `break`. -/
def subcommandSpec (name : String) (takesChunk : Bool) : Spec :=
  { command := "break " ++ name
    switches := [helpSwitch]
    operands :=
      if takesChunk then [{ name := "chunk", arity := .one, reading := .literal }] else [] }

end ChunkMachine.Debugger
