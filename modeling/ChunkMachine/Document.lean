import ChunkMachine.Text.Quoted

/-!
# JSON documents

The answers that tools read are JSON documents, in ASCII, indented by two spaces. `sorted` brings the
fields of every record into the order of their names.
-/

namespace ChunkMachine

/-- A JSON document. -/
inductive Document where
  | null
  | bool (b : Bool)
  | int (i : Int)
  | text (s : String)
  | list (items : List Document)
  | record (fields : List (String × Document))
deriving Inhabited

namespace Document

/-- The list of some texts. -/
def texts (l : List String) : Document := .list (l.map .text)

/-- A text or `null`. -/
def ofText? : Option String → Document
  | some s => .text s
  | none => .null

/-- Is the document a record without fields, or `null`? -/
def isBare : Document → Bool
  | .null => true
  | .record [] => true
  | _ => false

/-! ### Order of fields -/

/-- Put a field before the first one with a larger name. -/
def insertField (field : String × Document) : List (String × Document) → List (String × Document)
  | [] => [field]
  | other :: rest =>
    if field.1 < other.1 then field :: other :: rest else other :: insertField field rest

mutual

/-- The same document with the fields of every record in the order of their names. -/
def sorted : Document → Document
  | .list items => .list (sortedItems items)
  | .record fields => .record (sortedFields fields)
  | d => d

/-- The items of a list, each sorted. -/
def sortedItems : List Document → List Document
  | [] => []
  | d :: rest => sorted d :: sortedItems rest

/-- The fields of a record, in order, each sorted. -/
def sortedFields : List (String × Document) → List (String × Document)
  | [] => []
  | (name, d) :: rest => insertField (name, sorted d) (sortedFields rest)

end

/-! ### Text -/

/-- A 16-bit unit as an escape. -/
def unitEscape (n : Nat) : String := "\\u" ++ Text.smallHex 4 n

/-- A character inside a JSON string. One beyond 16 bits is written as two surrogates. -/
def charText (c : Char) : String :=
  if c == '"' then "\\\""
  else if c == '\\' then "\\\\"
  else if c == '\n' then "\\n"
  else if c == '\x0d' then "\\r"
  else if c == '\t' then "\\t"
  else if c == '\x08' then "\\b"
  else if c == '\x0c' then "\\f"
  else if 0x20 ≤ c.toNat ∧ c.toNat < 0x7F then c.toString
  else if c.toNat < 0x10000 then unitEscape c.toNat
  else
    unitEscape (0xD800 + (c.toNat - 0x10000) / 0x400) ++
      unitEscape (0xDC00 + (c.toNat - 0x10000) % 0x400)

/-- A JSON string. -/
def stringText (s : String) : String := "\"" ++ String.join (s.toList.map charText) ++ "\""

/-- The start of a line at a depth. -/
def lineStart (depth : Nat) : String := "\n" ++ String.ofList (List.replicate (2 * depth) ' ')

mutual

/-- The text of a document that begins at a depth. -/
def renderAt (depth : Nat) : Document → String
  | .null => "null"
  | .bool b => if b then "true" else "false"
  | .int i => toString i
  | .text s => stringText s
  | .list [] => "[]"
  | .list (d :: rest) =>
    "[" ++ lineStart (depth + 1) ++ renderAt (depth + 1) d ++ renderItems (depth + 1) rest ++
      lineStart depth ++ "]"
  | .record [] => "\x7b\x7d"
  | .record ((name, d) :: rest) =>
    "\x7b" ++ lineStart (depth + 1) ++ stringText name ++ ": " ++ renderAt (depth + 1) d ++
      renderFields (depth + 1) rest ++ lineStart depth ++ "\x7d"

/-- The items after the first one. -/
def renderItems (depth : Nat) : List Document → String
  | [] => ""
  | d :: rest => "," ++ lineStart depth ++ renderAt depth d ++ renderItems depth rest

/-- The fields after the first one. -/
def renderFields (depth : Nat) : List (String × Document) → String
  | [] => ""
  | (name, d) :: rest =>
    "," ++ lineStart depth ++ stringText name ++ ": " ++ renderAt depth d ++ renderFields depth rest

end

/-- The text of a document. -/
def render (d : Document) : String := renderAt 0 d

end Document

end ChunkMachine
