import TapeMachine.Brackets
import TapeMachine.Command.Documentation
import TapeMachine.Command.Inspect
import TapeMachine.Command.Repl
import TapeMachine.Command.Run
import TapeMachine.Command.Settings
import TapeMachine.Command.Workbench
import TapeMachine.Command.World
import TapeMachine.CommandLine.Configuration
import TapeMachine.CommandLine.Flag
import TapeMachine.CommandLine.Layers
import TapeMachine.CommandLine.Program
import TapeMachine.CommandLine.Variables
import TapeMachine.CommandLine.Verb
import TapeMachine.Disk
import TapeMachine.Fault
import TapeMachine.Format.Dotenv
import TapeMachine.Format.Hcl
import TapeMachine.Format.Hcl.Lexer
import TapeMachine.Format.Hcl.Node
import TapeMachine.Format.Hcl.Token
import TapeMachine.Format.Ini
import TapeMachine.Format.Json
import TapeMachine.Format.Properties
import TapeMachine.Format.Toml
import TapeMachine.Format.Toml.Numbers
import TapeMachine.Format.Toml.Register
import TapeMachine.Format.Toml.Strings
import TapeMachine.Format.Toml.Trouble
import TapeMachine.Inspect.Table
import TapeMachine.Inspect.Viewer
import TapeMachine.Inspect.Window
import TapeMachine.Instruction
import TapeMachine.Log.Level
import TapeMachine.Log.Record
import TapeMachine.Machine
import TapeMachine.Main
import TapeMachine.Options
import TapeMachine.Ordered
import TapeMachine.Path
import TapeMachine.Prompt.History
import TapeMachine.Prompt.Line
import TapeMachine.Prompt.Loop
import TapeMachine.Prompt.Prompter
import TapeMachine.Prompt.Terminal
import TapeMachine.Real
import TapeMachine.Real.Shortest
import TapeMachine.Session
import TapeMachine.Signal
import TapeMachine.Snapshot
import TapeMachine.Snapshot.Document
import TapeMachine.Stack
import TapeMachine.Store
import TapeMachine.Stream.Feed
import TapeMachine.Stream.Input
import TapeMachine.Stream.Outbox
import TapeMachine.Stream.Sink
import TapeMachine.Stream.Source
import TapeMachine.Tape
import TapeMachine.Text.Base64
import TapeMachine.Text.Blank
import TapeMachine.Text.Control
import TapeMachine.Text.Decimal
import TapeMachine.Text.Graphic
import TapeMachine.Text.Hex
import TapeMachine.Text.Numeral
import TapeMachine.Text.Octets
import TapeMachine.Text.Padding
import TapeMachine.Text.Printable
import TapeMachine.Text.Quoted
import TapeMachine.Text.Template
import TapeMachine.Text.Utf8
import TapeMachine.Time
import TapeMachine.Value
import TapeMachine.Word
import TapeMachine.Yaml.Characters
import TapeMachine.Yaml.Cursor
import TapeMachine.Yaml.Decoding
import TapeMachine.Yaml.Document
import TapeMachine.Yaml.Lexer
import TapeMachine.Yaml.Lines
import TapeMachine.Yaml.Node
import TapeMachine.Yaml.Printer
import TapeMachine.Yaml.Properties
import TapeMachine.Yaml.Reader
import TapeMachine.Yaml.Scalar
import TapeMachine.Yaml.Scalars
import TapeMachine.Yaml.Token
import TapeMachine.Yaml.Trouble
import TapeMachine.Proofs.Matching
import TapeMachine.Proofs.Resolve
import TapeMachine.Proofs.LoopStack
import TapeMachine.Proofs.Delivery
import TapeMachine.Proofs.Evaluation
import TapeMachine.Proofs.Refinement
import TapeMachine.Proofs.Reporting
import TapeMachine.Proofs.Future
import TapeMachine.Proofs.Resumption
import TapeMachine.Proofs.Concatenation
import TapeMachine.Proofs.Decimals
import TapeMachine.Proofs.PlainDocument
import TapeMachine.Proofs.SnapshotDocument
import TapeMachine.Proofs.Files
import TapeMachine.Proofs.Processes
import TapeMachine.Proofs.StepLimit
import TapeMachine.Proofs.Cancellation
import TapeMachine.Proofs.Histories
import TapeMachine.Proofs.Lines
import TapeMachine.Proofs.Cursor
import TapeMachine.Proofs.PipedPrompt
import TapeMachine.Proofs.StepCount
import TapeMachine.Proofs.Startup
import TapeMachine.Proofs.Inspection
import TapeMachine.Proofs.Complaints
import TapeMachine.Proofs.Atomicity
import TapeMachine.Proofs.Refusal
import TapeMachine.Proofs.Pacing
import TapeMachine.Proofs.Unmatched
import TapeMachine.Proofs.Comments
import TapeMachine.Proofs.ScriptedPrompt
import TapeMachine.Proofs.ModularTape
import TapeMachine.Proofs.Rotation
import TapeMachine.Proofs.Narrowing
import TapeMachine.Proofs.ForeignTable
import TapeMachine.Proofs.Windows
import TapeMachine.Proofs.Viewing
import TapeMachine.Proofs.WholeSource
import TapeMachine.Proofs.LineReading
import TapeMachine.Proofs.Hexadecimals
import TapeMachine.Proofs.Columns
