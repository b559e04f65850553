import ChunkMachine.Files.Path
import ChunkMachine.Program
import ChunkMachine.Text.Quoted

/-!
# Files

The files that the tools work on: a tree of directories and files, and the working directory, from
which relative paths start. Files are read and written whole, and a failure says why.
-/

namespace ChunkMachine

/-- The contents of a file. -/
abbrev Bytes := List UInt8

/-- Why a file operation failed. -/
inductive FileFault where
  | notFound
  | alreadyThere
  | notDirectory
  | isDirectory
  | nameTooLong
  /-- The path holds a null character. -/
  | nullByte
deriving DecidableEq

/-- The number of a file fault. -/
def FileFault.number : FileFault → Nat
  | .notFound => 2
  | .alreadyThere => 17
  | .notDirectory => 20
  | .isDirectory => 21
  | .nameTooLong => 36
  | .nullByte => 0

/-- The wording of a file fault. -/
def FileFault.reason : FileFault → String
  | .notFound => "No such file or directory"
  | .alreadyThere => "File exists"
  | .notDirectory => "Not a directory"
  | .isDirectory => "Is a directory"
  | .nameTooLong => "File name too long"
  | .nullByte => "embedded null byte"

/-- A failed operation on a path. -/
structure FileError where
  fault : FileFault
  path : Path
deriving DecidableEq

/-- The full wording of a failed operation. -/
def FileError.message (e : FileError) : String :=
  s!"[Errno {e.fault.number}] {e.fault.reason}: {Text.quoted e.path.text}"

/-- What a name stands for. -/
inductive Node where
  | file (bytes : Bytes)
  | directory
deriving DecidableEq

/-- A tree of nodes, each with the names that lead to it from the root. -/
structure Files where
  /-- The working directory. -/
  base : List String := []
  nodes : List (List String × Node) := []
deriving DecidableEq

namespace Files

/-! ### Looking up -/

/-- The longest name of a file, in bytes. -/
def maxName : Nat := 255

/-- The longest path, in bytes. -/
def maxPath : Nat := 4095

/-- What is at a place, which is given by the names that lead to it from the root. The root and the
working directory are always there. -/
def at? (f : Files) (place : List String) : Option Node :=
  if place.isPrefixOf f.base then some .directory else f.nodes.lookup place

/-- Is there a directory at a place? -/
def isDirectoryAt (f : Files) (place : List String) : Bool := f.at? place = some .directory

/-- The place of a name in the directory at a place, whether there is something or not. -/
def child (f : Files) (place : List String) (name : String) : Except FileFault (List String) :=
  if !f.isDirectoryAt place then .error .notDirectory
  else if name = ".." then .ok place.dropLast
  else if maxName < name.utf8ByteSize then .error .nameTooLong
  else .ok (place ++ [name])

/-- Go to a name in the directory at a place. -/
def enter (f : Files) (place : List String) (name : String) : Except FileFault (List String) := do
  let place ← f.child place name
  if (f.at? place).isSome then .ok place else .error .notFound

/-- Where a path starts. -/
def startOf (f : Files) (p : Path) : List String := if p.root = "" then f.base else []

/-- Is a path too long to be asked for, as it is written? -/
def isTooLong (text : String) : Bool := maxPath < text.utf8ByteSize

/-- Can the path be asked for at all? -/
def admissible (p : Path) : Except FileFault Unit :=
  if p.hasNull then .error .nullByte
  else if isTooLong p.text then .error .nameTooLong
  else .ok ()

/-- Follow a path to something that is there. -/
def find (f : Files) (p : Path) : Except FileFault (List String) := do
  admissible p
  p.names.foldlM f.enter (f.startOf p)

/-- Follow a path to a place in a directory that is there. -/
def findSlot (f : Files) (p : Path) : Except FileFault (List String) := do
  admissible p
  match p.names.getLast? with
  | none => .ok (f.startOf p)
  | some name =>
    let directory ← p.names.dropLast.foldlM f.enter (f.startOf p)
    f.child directory name

/-- Attach the path to a fault. -/
def failingAt {α : Type} (p : Path) : Except FileFault α → Except FileError α
  | .ok a => .ok a
  | .error fault => .error ⟨fault, p⟩

/-- Is there a directory at the end of a path? -/
def isDirectory (f : Files) (p : Path) : Bool :=
  match f.find p with
  | .ok place => f.isDirectoryAt place
  | .error _ => false

/-- The contents of a file. -/
def read (f : Files) (p : Path) : Except FileError Bytes :=
  failingAt p do
    match f.at? (← f.find p) with
    | some (.file bytes) => .ok bytes
    | some .directory => .error .isDirectory
    | none => .error .notFound

/-! ### Changing -/

/-- Put a node at a place, in place of what was there. -/
def put (f : Files) (place : List String) (node : Node) : Files :=
  { f with nodes := f.nodes.filter (·.1 != place) ++ [(place, node)] }

/-- Write a file whole, making it if it is not there. -/
def write (f : Files) (p : Path) (bytes : Bytes) : Except FileError Files :=
  failingAt p do
    let place ← f.findSlot p
    if f.isDirectoryAt place then .error .isDirectory else .ok (f.put place (.file bytes))

/-- Make a directory. -/
def makeDirectory (f : Files) (p : Path) : Except FileError Files :=
  failingAt p do
    let place ← f.findSlot p
    if (f.at? place).isSome then .error .alreadyThere else .ok (f.put place .directory)

/-- Make a directory unless it is there. -/
def ensureDirectory (f : Files) (p : Path) : Except FileError Files :=
  match f.makeDirectory p with
  | .ok f => .ok f
  | .error e => if f.isDirectory p then .ok f else .error e

/-- Make a directory and those it lies in, unless they are there. Directories made before a failure
stay. -/
def ensureDirectories (f : Files) (p : Path) : Files × Option FileError :=
  match f.ensureDirectory p with
  | .ok f => (f, none)
  | .error e =>
    if _h : p.names = [] then (f, some e)
    else if e.fault = .notFound then
      match f.ensureDirectories p.parent with
      | (f, some e) => (f, some e)
      | (f, none) =>
        match f.ensureDirectory p with
        | .ok f => (f, none)
        | .error e => (f, some e)
    else (f, some e)
termination_by p.names.length
decreasing_by
  have := List.length_pos_iff.2 _h
  simp only [Path.parent, List.length_dropLast]
  omega

/-- Put a node at a place, together with the directories that lead to it. -/
def plant (f : Files) (place : List String) (node : Node) : Files :=
  let directories := (List.range place.length).map place.take
  let f := directories.foldl
    (fun (f : Files) d => if (f.at? d).isSome then f else f.put d .directory) f
  f.put place node

/-- The files of a list of paths with contents, a path without contents being a directory. -/
def ofList (base : List String) (l : List (String × Option Bytes)) : Files :=
  l.foldl (fun f (name, bytes?) =>
    let path := Path.ofString name
    f.plant (f.startOf path ++ path.names) ((bytes?.map Node.file).getD .directory)) { base }

/-- The files that are new in a later state or hold other bytes there. -/
def changes (before after : Files) : List (List String × Bytes) :=
  after.nodes.filterMap fun (place, node) =>
    match node with
    | .file bytes =>
      if before.nodes.lookup place = some (.file bytes) then none else some (place, bytes)
    | .directory => none

/-! ### Programs -/

/-- The text of bytes that are read one character each. -/
def textOfBytes (bytes : Bytes) : String := String.ofList (bytes.map fun b => Char.ofNat b.toNat)

/-- Load the program in a file. -/
def loadProgram (f : Files) (p : Path) : Except LoadFault Program :=
  match f.read p with
  | .ok bytes => Program.parse (textOfBytes bytes)
  | .error e => .error (if e.fault = .nullByte then .nullByte else .unreadable p.text)

end Files

end ChunkMachine
