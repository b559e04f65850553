import ChunkMachine.Document

/-!
# Reports

A debugger command answers with a report. A report has two forms, a plain text and a JSON document;
which of them is printed is decided by the session and by nothing else. A notice is printed as text
in both cases.
-/

namespace ChunkMachine.Debugger

/-- The answer to a command. -/
inductive Report where
  /-- The command did what it was asked; the document holds the data, or else the message. -/
  | result (message : String) (data : Option Document)
  /-- The command failed; the document holds the message and the details, if there are any. -/
  | error (message : String) (details : Document)
  /-- A text that has no JSON form and is printed as it is. -/
  | notice (text : String)

namespace Report

/-- The document of a successful command. -/
def resultDocument (message : String) : Option Document → Document
  | some data => .record [("status", .text "ok"), ("result", data)]
  | none => .record [("status", .text "ok"), ("message", .text message)]

/-- The document of a failed command. -/
def errorDocument (message : String) (details : Document) : Document :=
  .record ([("status", .text "error"), ("error", .text message)] ++
    if details.isBare then [] else [("details", details)])

/-- The printed form of a report. -/
def render (json : Bool) : Report → String
  | .result message data =>
    (if json then (resultDocument message data).sorted.render else message) ++ "\n"
  | .error message details =>
    (if json then (errorDocument message details).sorted.render else "error: " ++ message) ++ "\n"
  | .notice text => text

end Report

/-! ### Stops -/

/-- Why the debugger stopped the program. -/
inductive StopReason where
  | step
  | limit
  | breakpoint
  | halted
  | error
  | other (name : String)
deriving DecidableEq

namespace StopReason

/-- The name of a reason. -/
def name : StopReason → String
  | .step => "step"
  | .limit => "limit"
  | .breakpoint => "breakpoint"
  | .halted => "halted"
  | .error => "error"
  | .other name => name

/-- The reason of a name. -/
def ofName : String → StopReason
  | "step" => .step
  | "limit" => .limit
  | "breakpoint" => .breakpoint
  | "halted" => .halted
  | "error" => .error
  | name => .other name

end StopReason

/-- Where and why the debugger stopped the program. -/
structure Stop where
  reason : StopReason
  chunk : Int
  steps : Int
  error : Option String := none
deriving DecidableEq

namespace Stop

/-- A stop in words. -/
def describe (s : Stop) : String :=
  match s.reason with
  | .error => s!"stopped at chunk {s.chunk}: " ++ s.error.getD "None"
  | .halted => s!"program halted after {s.steps} chunk(s)"
  | reason => s!"{reason.name} at chunk {s.chunk} ({s.steps} chunk(s) executed)"

/-- Did the stop come with an error? -/
def failed (s : Stop) : Bool := s.error.any (· != "")

/-- The data of a stop. -/
def document (s : Stop) : Document :=
  .record ([("reason", .text s.reason.name), ("chunk", .int s.chunk), ("steps", .int s.steps)] ++
    if s.failed then [("error", Document.ofText? s.error)] else [])

/-- The report of a stop. -/
def report (s : Stop) : Report :=
  if s.failed then .error s.describe s.document else .result s.describe (some s.document)

end Stop

/-! ### Stacks -/

/-- The line of a value at a depth of the stack. -/
def stackLine (depth : Nat) (value : Int) : String :=
  "  [" ++ Text.zeroFilled 2 depth ++ "] " ++ Text.spaceFilled 10 value ++ "  0x" ++
    Text.zeroFilledHex 8 value

/-- A stack in print, one line per value. -/
def stackText (values : List Int) : String :=
  if values.isEmpty then "stack: (empty)"
  else
    "\n".intercalate
      ("stack (top first):" :: values.zipIdx.map fun (value, depth) => stackLine depth value)

end ChunkMachine.Debugger
