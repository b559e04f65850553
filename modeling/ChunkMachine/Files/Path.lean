import ChunkMachine.Text.Begins

/-!
# Paths

A path is a root, which is empty for a relative path, and the names on the way. Reading a path drops
empty names and single dots; two dots are kept. Exactly two slashes at the start are a root of their
own, any other number of them is one slash. A first name that begins with a tilde stands for a home
directory.
-/

namespace ChunkMachine

/-- A path in normal form. -/
structure Path where
  root : String
  names : List String
deriving DecidableEq

/-! ### Homes -/

/-- Where the users live. -/
structure Homes where
  /-- The home directory of the user, if it is known. -/
  own : Option String := some "/"
  /-- The home directories of users by name. -/
  others : List (String × String) := []

/-- Why a home directory cannot be found. -/
inductive HomeFault where
  /-- None is known, or what is known begins with a tilde itself. -/
  | unknown
  /-- The name of the user holds a null character. -/
  | nullByte
deriving DecidableEq

/-- A home directory as it is put before the rest of a path: without slashes at its end. -/
def trimHome (home : String) : String :=
  let trimmed := String.ofList (home.toList.reverse.dropWhile (· == '/')).reverse
  if trimmed.isEmpty then "/" else trimmed

/-- The home directory of a user; without a name, the user's own. -/
def Homes.find (homes : Homes) (user : String) : Except HomeFault String :=
  if user.toList.contains '\x00' then .error .nullByte
  else
    match if user = "" then homes.own else homes.others.lookup user with
    | none => .error .unknown
    | some home => if Text.begins "~" home then .error .unknown else .ok (trimHome home)

/-! ### Paths -/

namespace Path

/-- The root that so many slashes at the start of a path mean. -/
def rootOf : Nat → String
  | 0 => ""
  | 2 => "//"
  | _ => "/"

/-- The pieces of a list of characters between slashes; `piece` holds the characters of the piece
being read, last first. -/
def splitSlashes : (piece : List Char) → List Char → List String
  | piece, [] => [String.ofList piece.reverse]
  | piece, c :: cs =>
    if c == '/' then String.ofList piece.reverse :: splitSlashes [] cs
    else splitSlashes (c :: piece) cs

/-- Read a path. -/
def ofString (s : String) : Path :=
  { root := rootOf (s.toList.takeWhile (· == '/')).length
    names := (splitSlashes [] s.toList).filter fun name => name != "" && name != "." }

/-- Write a path; the empty one is a dot. -/
def text (p : Path) : String :=
  if p.root = "" ∧ p.names = [] then "." else p.root ++ "/".intercalate p.names

/-- The path of the directory that a path lies in. -/
def parent (p : Path) : Path := { p with names := p.names.dropLast }

/-- A path below another one. -/
def join (p : Path) (name : String) : Path := { p with names := p.names ++ [name] }

/-- Does the path hold a null character? -/
def hasNull (p : Path) : Bool := p.names.any fun name => name.toList.contains '\x00'

/-- The path with a home directory put in for a leading tilde. -/
def expandHome (homes : Homes) (p : Path) : Except HomeFault Path :=
  match p.root, p.names with
  | "", name :: names =>
    if Text.begins "~" name then
      (homes.find (String.ofList (name.toList.drop 1))).map fun home =>
        let base := ofString home
        { base with names := base.names ++ names }
    else .ok p
  | _, _ => .ok p

end Path

end ChunkMachine
