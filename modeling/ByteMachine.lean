import ByteMachine.Assembly.Complaint
import ByteMachine.Assembly.Layout
import ByteMachine.Assembly.Operand
import ByteMachine.Assembly.Program
import ByteMachine.Assembly.SourceLine
import ByteMachine.Assembly.Statement
import ByteMachine.Command.Device
import ByteMachine.Command.Directory
import ByteMachine.Command.FileError
import ByteMachine.Command.Help
import ByteMachine.Command.Invocation
import ByteMachine.Command.Path
import ByteMachine.Command.Plan
import ByteMachine.Command.Response
import ByteMachine.Command.Run
import ByteMachine.Command.Subcommand
import ByteMachine.Fault
import ByteMachine.Instruction.Basic
import ByteMachine.Instruction.Encoding
import ByteMachine.Instruction.Opcode
import ByteMachine.Listing
import ByteMachine.Machine.Basic
import ByteMachine.Machine.Execute
import ByteMachine.Machine.Fetch
import ByteMachine.Machine.Perform
import ByteMachine.Machine.Step
import ByteMachine.Main
import ByteMachine.Output.Journal
import ByteMachine.Output.LogFilter
import ByteMachine.Output.LogRequest
import ByteMachine.Output.Sink
import ByteMachine.Pattern.Basic
import ByteMachine.Pattern.Bracket
import ByteMachine.Pattern.CharSet
import ByteMachine.Pattern.Cursor
import ByteMachine.Pattern.Escape
import ByteMachine.Pattern.Flaw
import ByteMachine.Pattern.Meaning
import ByteMachine.Pattern.Reader
import ByteMachine.Pattern.Written
import ByteMachine.Proofs.AcceptingSink
import ByteMachine.Proofs.AssembleCommand
import ByteMachine.Proofs.Boundaries
import ByteMachine.Proofs.Budget
import ByteMachine.Proofs.CommandRuns
import ByteMachine.Proofs.ControlFlow
import ByteMachine.Proofs.Decoding
import ByteMachine.Proofs.DigitRows
import ByteMachine.Proofs.Effects
import ByteMachine.Proofs.ErrorLines
import ByteMachine.Proofs.Execution
import ByteMachine.Proofs.Faulting
import ByteMachine.Proofs.FreshStart
import ByteMachine.Proofs.History
import ByteMachine.Proofs.InstructionTable
import ByteMachine.Proofs.Letters
import ByteMachine.Proofs.LimitedOutput
import ByteMachine.Proofs.ListedSteps
import ByteMachine.Proofs.ListingCover
import ByteMachine.Proofs.MemoryContents
import ByteMachine.Proofs.NumberClasses
import ByteMachine.Proofs.Numeral
import ByteMachine.Proofs.OperandWords
import ByteMachine.Proofs.Operands
import ByteMachine.Proofs.Outline
import ByteMachine.Proofs.PassAgreement
import ByteMachine.Proofs.PrintedListing
import ByteMachine.Proofs.Printing
import ByteMachine.Proofs.Reading
import ByteMachine.Proofs.Reassembly
import ByteMachine.Proofs.Relisting
import ByteMachine.Proofs.Relocation
import ByteMachine.Proofs.Rendering
import ByteMachine.Proofs.ReportTexts
import ByteMachine.Proofs.Result
import ByteMachine.Proofs.Runs
import ByteMachine.Proofs.SourceItems
import ByteMachine.Proofs.SourceText
import ByteMachine.Proofs.StackRefinement
import ByteMachine.Proofs.Stepping
import ByteMachine.Proofs.Tiling
import ByteMachine.Proofs.Trace
import ByteMachine.Proofs.TracedOutput
import ByteMachine.Proofs.UniqueDecoding
import ByteMachine.Proofs.WrittenParts
import ByteMachine.Report.Basic
import ByteMachine.Report.Json
import ByteMachine.Report.Yaml
import ByteMachine.Samples
import ByteMachine.Session.Basic
import ByteMachine.Session.Run
import ByteMachine.Storage.Change
import ByteMachine.Storage.Image
import ByteMachine.Storage.OperandStack
import ByteMachine.Storage.RegisterBank
import ByteMachine.Text.Blank
import ByteMachine.Text.Numeral
import ByteMachine.Text.Quoted
import ByteMachine.Text.Shown
import ByteMachine.Yaml.Character
import ByteMachine.Yaml.Number
import ByteMachine.Yaml.Scalar
import ByteMachine.Yaml.Style
