import ChunkMachine.Document
import ChunkMachine.Listing
import ChunkMachine.Tool

/-!
# Listing a program

The lister prints the listing of one program, as text under a heading or as a JSON document.
-/

namespace ChunkMachine

/-- The document of an entry. -/
def Entry.document (e : Entry) : Document :=
  .record
    [("chunk", .int e.chunk), ("offset", .int e.offset), ("text", .text e.text),
     ("mnemonics", .texts e.mnemonics)]

namespace Disassemble

open Options

/-- The arguments of the lister. -/
def spec : Spec :=
  { command := "xrf-dis"
    description := "XRF chunk disassembler"
    switches :=
      [helpSwitch,
       { spellings := ["--json"], key := "json", effect := .turnOn
         help := "emit JSON instead of text" }]
    operands := [{ name := "program", arity := .one, help := "XRF source file" }] }

/-- The document of a program's listing. -/
def document (program : Program) : Document :=
  .record
    [("chunks", .int program.chunkCount), ("listing", .list (program.listing.map Entry.document))]

/-- The text of a program's listing. -/
def text (path : Path) (program : Program) : String :=
  unlines (s!"; {path.text} chunks={program.chunkCount}" :: listingLines program.listing none)

/-- The lister. -/
def tool (s : Surroundings) (argv : List String) : ToolResult :=
  match parse spec argv with
  | .error refusal => refuseArguments spec s.files refusal
  | .ok p =>
    let path := Path.ofString ((p.text? "program").getD "")
    match s.files.loadProgram path with
    | .error .nullByte => { ended := .escaped .nullByte, files := s.files }
    | .error fault =>
      { ended := .status 1, stderr := "Error! " ++ fault.message ++ "\n", files := s.files }
    | .ok program =>
      { ended := .status 0
        stdout :=
          [.text (if p.isOn "json" then (document program).render ++ "\n" else text path program)]
        files := s.files }

end Disassemble

end ChunkMachine
