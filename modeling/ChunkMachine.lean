import ChunkMachine.Chunk.Execute
import ChunkMachine.Debugger.Command
import ChunkMachine.Debugger.Completion
import ChunkMachine.Debugger.Control
import ChunkMachine.Debugger.Dispatch
import ChunkMachine.Debugger.History
import ChunkMachine.Debugger.Prompt
import ChunkMachine.Debugger.Report
import ChunkMachine.Debugger.Session
import ChunkMachine.Document
import ChunkMachine.Engine
import ChunkMachine.Engine.Fault
import ChunkMachine.Engine.Trace
import ChunkMachine.Files
import ChunkMachine.Files.Path
import ChunkMachine.Listing
import ChunkMachine.Log
import ChunkMachine.Main
import ChunkMachine.Opcode
import ChunkMachine.Options
import ChunkMachine.Options.Usage
import ChunkMachine.Port
import ChunkMachine.Program
import ChunkMachine.Program.Code
import ChunkMachine.Proofs.Agreement
import ChunkMachine.Proofs.Append
import ChunkMachine.Proofs.Arguments
import ChunkMachine.Proofs.Breakpoints
import ChunkMachine.Proofs.CleanedLog
import ChunkMachine.Proofs.Coherence
import ChunkMachine.Proofs.CommandLines
import ChunkMachine.Proofs.Completing
import ChunkMachine.Proofs.Composition
import ChunkMachine.Proofs.Depth
import ChunkMachine.Proofs.History
import ChunkMachine.Proofs.Input
import ChunkMachine.Proofs.Interchange
import ChunkMachine.Proofs.Interrupt
import ChunkMachine.Proofs.Invariant
import ChunkMachine.Proofs.JsonReplies
import ChunkMachine.Proofs.Lines
import ChunkMachine.Proofs.Listing
import ChunkMachine.Proofs.ListingWindow
import ChunkMachine.Proofs.Locality
import ChunkMachine.Proofs.Numerals
import ChunkMachine.Proofs.Persistence
import ChunkMachine.Proofs.Plan
import ChunkMachine.Proofs.Presentation
import ChunkMachine.Proofs.ProgramText
import ChunkMachine.Proofs.PromptFold
import ChunkMachine.Proofs.Quoting
import ChunkMachine.Proofs.Rejection
import ChunkMachine.Proofs.ReservedOptions
import ChunkMachine.Proofs.Restart
import ChunkMachine.Proofs.Resumption
import ChunkMachine.Proofs.Returns
import ChunkMachine.Proofs.Rotation
import ChunkMachine.Proofs.RunnerArguments
import ChunkMachine.Proofs.RunnerStatus
import ChunkMachine.Proofs.SessionFrame
import ChunkMachine.Proofs.SessionStep
import ChunkMachine.Proofs.Shuffle
import ChunkMachine.Proofs.Simulation
import ChunkMachine.Proofs.Splitting
import ChunkMachine.Proofs.StackValues
import ChunkMachine.Proofs.Step
import ChunkMachine.Proofs.StepEffects
import ChunkMachine.Proofs.StoppingRule
import ChunkMachine.Proofs.ToolArguments
import ChunkMachine.Proofs.TraceRecord
import ChunkMachine.Proofs.Transparency
import ChunkMachine.Proofs.WordsBefore
import ChunkMachine.Random.Generator
import ChunkMachine.Stack
import ChunkMachine.Stack.Shuffle
import ChunkMachine.Text.Begins
import ChunkMachine.Text.CharClass
import ChunkMachine.Text.Columns
import ChunkMachine.Text.Digit
import ChunkMachine.Text.Integer
import ChunkMachine.Text.LowerCase
import ChunkMachine.Text.Printable
import ChunkMachine.Text.Quoted
import ChunkMachine.Text.Space
import ChunkMachine.Text.Words
import ChunkMachine.Tool
import ChunkMachine.Tool.Debug
import ChunkMachine.Tool.Disassemble
import ChunkMachine.Tool.Run
