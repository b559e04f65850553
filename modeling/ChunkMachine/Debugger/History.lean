import ChunkMachine.Text.Space
import ChunkMachine.Tool

/-!
# Command history

The lines typed at the prompt are kept, without white space around them, up to a limit. A line that
is empty or repeats the one before is not kept. With a path the history survives the session: it is
read from the file at the start and the file is written anew after every line that is kept. A file
that cannot be read or written is only warned about.
-/

namespace ChunkMachine.Debugger

/-- The kept lines. -/
structure History where
  /-- Where the history is kept between sessions. -/
  path : Option Path := none
  /-- The most lines that are kept. -/
  limit : Nat := 500
  /-- The lines, oldest first. -/
  entries : List String := []
deriving DecidableEq

namespace History

/-- The last elements of a list. -/
def lastOf {α : Type} (n : Nat) (l : List α) : List α := l.drop (l.length - n)

/-- The limit that is meant by an integer: at least one line is kept. -/
def limitOf (limit : Int) : Nat := (max 1 limit).toNat

/-- A record of a file that could not be used. -/
def warning (doing : String) (e : FileError) (path : Path) : LogRecord :=
  ⟨.warning, "xrf_dbg.history", "cannot " ++ doing ++ " history " ++ path.text ++ ": " ++ e.message⟩

/-- The text of bytes in UTF-8; `none` if they are not. -/
def decodeText (bytes : Bytes) : Option String := String.fromUTF8? ⟨bytes.toArray⟩

/-- The lines of a history file that count: those with more than white space, stripped. -/
def cleaned (text : String) : List String :=
  ((Text.lines text).map Text.strip).filter (· != "")

/-- Read the lines of the history file. A missing file has none. -/
def load (files : Files) (h : History) (path : Path) : Except Escape (History × List LogRecord) :=
  match files.read path with
  | .ok bytes =>
    match decodeText bytes with
    | some text => .ok ({ h with entries := lastOf h.limit (cleaned text) }, [])
    | none => .error .undecodable
  | .error e =>
    match e.fault with
    | .notFound => .ok (h, [])
    | .nullByte => .error .nullByte
    | _ => .ok (h, [warning "read" e path])

/-- Open the history of a path; without a path, or with an empty one, it is not kept in a file. -/
def openAt (w : Surroundings) (path : Option String) (limit : Int) :
    Except Escape (History × List LogRecord) :=
  let h : History := { limit := limitOf limit }
  match path with
  | none | some "" => .ok (h, [])
  | some name =>
    match (Path.ofString name).expandHome w.homes with
    | .error fault => .error (.ofHome fault)
    | .ok path => load w.files { h with path := some path } path

/-- The contents of the history file. -/
def contents (h : History) : Bytes := encodeText ("\n".intercalate h.entries ++ "\n")

/-- Write the history file. -/
def persist (files : Files) (h : History) : Files × List LogRecord :=
  match h.path with
  | none => (files, [])
  | some path =>
    match files.ensureDirectories path.parent with
    | (files, some e) => (files, [warning "write" e path])
    | (files, none) =>
      match files.write path h.contents with
      | .error e => (files, [warning "write" e path])
      | .ok files => (files, [])

/-- Is a line, already stripped, to be kept? -/
def keeps (h : History) (text : String) : Bool := text != "" && h.entries.getLast? != some text

/-- The history with one more line, already stripped. -/
def add (h : History) (text : String) : History :=
  { h with entries := lastOf h.limit (h.entries ++ [text]) }

/-- Keep a line, if it is to be kept, and write the history file. -/
def append (files : Files) (h : History) (line : String) : History × Files × List LogRecord :=
  let text := Text.strip line
  if h.keeps text then
    let h := h.add text
    let (files, log) := h.persist files
    (h, files, log)
  else (h, files, [])

end History

end ChunkMachine.Debugger
