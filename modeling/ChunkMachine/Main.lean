import ChunkMachine.Tool.Debug
import ChunkMachine.Tool.Disassemble
import ChunkMachine.Tool.Run
import Mathlib.Tactic.DeprecateTo

/-!
# The command line

`run`, `dis` and `dbg` start the three tools. Before a tool starts, the files that its words may name
are read; after it has ended, what it left behind is written. Everything in between is the tool's own
function, which knows nothing of the outside. The debugger's prompt takes its lines from the standard
input.
-/

namespace ChunkMachine.CommandLine

/-- More chunks than any program will execute. -/
def fuel : Nat := Nat.pow 2 62

/-- The name and the home directory in a line of the list of users. -/
def homeOfLine (line : String) : Option (String × String) :=
  match line.splitOn ":" with
  | name :: _ :: _ :: _ :: _ :: home :: _ => some (name, home)
  | _ => none

/-- Where the users live. -/
def findHomes : IO Homes := do
  let users ← try IO.FS.readFile "/etc/passwd" catch _ => pure ""
  return { own := ← IO.getEnv "HOME", others := (users.splitOn "\n").filterMap homeOfLine }

/-- The texts among some words that may name a file. -/
def namesAmong (homes : Homes) (words : List String) : List String :=
  let texts := words ++ words.filterMap fun word => (Options.cutAtSign word).2
  let expanded := texts.filterMap fun text =>
    ((Path.ofString text).expandHome homes).toOption.map Path.text
  (texts ++ expanded).filter fun text =>
    !text.isEmpty && !text.toList.contains '\x00'

/-- Add what a name stands for, with the directories that lead there. -/
def gatherOne (files : Files) (name : String) : IO Files := do
  let path := Path.ofString name
  let mut files := files
  for count in List.range (path.names.length + 1) do
    let ahead : Path := { path with names := path.names.take count }
    let real ← try IO.FS.realPath ahead.text catch _ => continue
    if ← real.isDir then files := files.plant (files.startOf ahead ++ ahead.names) .directory
  try
    let bytes ← IO.FS.readBinFile name
    return files.plant (files.startOf path ++ path.names) (.file bytes.toList)
  catch _ => return files

/-- Write the files that a tool changed. -/
def writeChanges (before after : Files) : IO Unit := do
  for (place, bytes) in Files.changes before after do
    IO.FS.createDirAll ("/" ++ "/".intercalate place.dropLast)
    IO.FS.writeBinFile ("/" ++ "/".intercalate place) ⟨bytes.toArray⟩

/-- Write what a tool left behind; the result is the exit code. -/
def deliver (before : Files) (r : ToolResult) : IO UInt32 := do
  let stdout ← IO.getStdout
  stdout.write ⟨r.inCallOrder.toArray⟩
  stdout.flush
  IO.eprint r.stderr
  writeChanges before r.files
  match r.ended with
  | .status code | .exit code => return UInt32.ofNat code
  | .escaped escape => do
    IO.eprintln escape.message
    return 1
  | .unfinished => return 1

/-- The standard input, read to its end or as far as the system gives it. -/
def readInput : IO Stdin := do
  try
    return .opened (← (← IO.getStdin).readBinToEnd).toList
  catch e => return .opened [] (some (toString e))

/-- The lines of some bytes. -/
def linesOf (bytes : Bytes) : List String :=
  let lines := ((String.fromUTF8? ⟨bytes.toArray⟩).getD "").splitOn "\n"
  if lines.getLast? = some "" then lines.dropLast else lines

/-- Start a tool. -/
def start (tool : String) (argv : List String) : IO UInt32 := do
  let homes ← findHomes
  let base := (Path.ofString (← IO.currentDir).toString).names
  let stdin ← readInput
  let lines := match stdin with
    | .opened bytes _ => linesOf bytes
    | .closed => []
  let typed := lines.flatMap fun line => Debugger.commandWords (Text.strip line)
  let commands := argv.flatMap fun word => Debugger.commandWords (Text.strip word)
  let history := (homes.find "").toOption.map fun home =>
    ((Path.ofString home).join Debug.historyName).text
  let names := history.toList ++ namesAmong homes (argv ++ typed ++ commands)
  let files ← names.foldlM gatherOne { base }
  -- `Std.Time` is not in the prelude, the last import brings it in
  let clock := (← Std.Time.Timestamp.now).toSecondsSinceUnixEpoch.val
  let surroundings : Surroundings := { files, stdin, clock, homes }
  match tool with
  | "run" => deliver files (Run.tool fuel surroundings argv)
  | "dis" => deliver files (Disassemble.tool surroundings argv)
  | "dbg" => deliver files (Debug.tool fuel surroundings argv (lines.map .line)).result
  | _ => do
    IO.eprintln "usage: (run | dis | dbg) ARGUMENTS"
    return 2

end ChunkMachine.CommandLine

/-- Start the tool that the first word names. -/
def main (args : List String) : IO UInt32 :=
  ChunkMachine.CommandLine.start (args.headD "") args.tail
