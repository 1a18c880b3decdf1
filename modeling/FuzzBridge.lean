import FuzzBridge.Argument.Basic
import FuzzBridge.Argument.Datum
import FuzzBridge.Argument.Fill
import FuzzBridge.Argument.Form
import FuzzBridge.Argument.Type
import FuzzBridge.Campaign.Bytecode
import FuzzBridge.Campaign.Config
import FuzzBridge.Campaign.Coverage
import FuzzBridge.Campaign.External
import FuzzBridge.Campaign.Extraction
import FuzzBridge.Campaign.Report
import FuzzBridge.Campaign.Site
import FuzzBridge.Campaign.Solving
import FuzzBridge.Command.Arguments
import FuzzBridge.Command.Help
import FuzzBridge.Command.Invocation
import FuzzBridge.Command.Run
import FuzzBridge.Corpus.Entry
import FuzzBridge.Corpus.Seeds
import FuzzBridge.Corpus.Templates
import FuzzBridge.Dataflow.Frontier
import FuzzBridge.Dataflow.Graph
import FuzzBridge.Dataflow.GraphFile
import FuzzBridge.Duration
import FuzzBridge.Encoding.Call
import FuzzBridge.Encoding.Keccak
import FuzzBridge.Encoding.Layout
import FuzzBridge.Fault
import FuzzBridge.Json.Basic
import FuzzBridge.Json.Draft
import FuzzBridge.Json.Lexer
import FuzzBridge.Json.Numeral
import FuzzBridge.Json.Printer
import FuzzBridge.Json.Reader
import FuzzBridge.Json.Tagged
import FuzzBridge.Main
import FuzzBridge.Number.Double
import FuzzBridge.Number.Literal
import FuzzBridge.Number.Shortest
import FuzzBridge.Number.Word
import FuzzBridge.Program.Arithmetic
import FuzzBridge.Program.Builtin
import FuzzBridge.Program.Desk
import FuzzBridge.Program.Escape
import FuzzBridge.Program.Field
import FuzzBridge.Program.Launch
import FuzzBridge.Program.Outcome
import FuzzBridge.Program.Pattern
import FuzzBridge.Program.Regex
import FuzzBridge.Program.Script
import FuzzBridge.Program.ScriptText
import FuzzBridge.Program.Session
import FuzzBridge.Program.Shell
import FuzzBridge.Program.Signal
import FuzzBridge.Program.Utility.Basic
import FuzzBridge.Program.Utility.Edit
import FuzzBridge.Program.Utility.Files
import FuzzBridge.Program.Utility.Lines
import FuzzBridge.Program.Utility.Search
import FuzzBridge.Program.Utility.Test
import FuzzBridge.Proofs.Argument.Substitution
import FuzzBridge.Proofs.Encoding.Conformance
import FuzzBridge.Proofs.Encoding.Evaluation
import FuzzBridge.Proofs.Encoding.Leaves
import FuzzBridge.Proofs.Encoding.Terms
import FuzzBridge.Proofs.Number.Numeral
import FuzzBridge.Proofs.Number.Word
import FuzzBridge.Proofs.Result
import FuzzBridge.Proofs.Solver.Assignment
import FuzzBridge.Proofs.Solver.CallData
import FuzzBridge.Proofs.Solver.Frame
import FuzzBridge.Proofs.Solver.Place
import FuzzBridge.Proofs.Table
import FuzzBridge.Record.Basic
import FuzzBridge.Record.Fill
import FuzzBridge.Record.Lift
import FuzzBridge.Solver.Assignment
import FuzzBridge.Solver.CallData
import FuzzBridge.Solver.Model
import FuzzBridge.Solver.Place
import FuzzBridge.Solver.Step
import FuzzBridge.Solver.Term
import FuzzBridge.Storage.Basic
import FuzzBridge.Storage.FreeName
import FuzzBridge.Storage.Path
import FuzzBridge.Table
import FuzzBridge.Text.Blank
import FuzzBridge.Text.ByteText
import FuzzBridge.Text.Quoted
import FuzzBridge.Text.Unshown
import FuzzBridge.Text.Utf8
import FuzzBridge.Yaml.Cursor
import FuzzBridge.Yaml.Document
import FuzzBridge.Yaml.Event
import FuzzBridge.Yaml.Scalar
import FuzzBridge.Yaml.Tag
import FuzzBridge.Yaml.Token
import FuzzBridge.Yaml.Value
import FuzzBridge.Proofs.Argument.Leaves
import FuzzBridge.Proofs.Encoding.Frame
import FuzzBridge.Proofs.Encoding.FunctionCall
import FuzzBridge.Proofs.Record.Reading
import FuzzBridge.Proofs.Record.Leaves
import FuzzBridge.Proofs.Record.Substitution
import FuzzBridge.Proofs.Record.Outcome
import FuzzBridge.Proofs.Record.WriteBack
import FuzzBridge.Proofs.Record.Replay
import FuzzBridge.Proofs.Encoding.Decoder
import FuzzBridge.Proofs.Encoding.Decoding
import FuzzBridge.Proofs.Encoding.Layout
import FuzzBridge.Proofs.Encoding.RoundTrip
import FuzzBridge.Proofs.Solver.Name
import FuzzBridge.Proofs.Dataflow.Frontier
import FuzzBridge.Proofs.Encoding.Symbols
import FuzzBridge.Proofs.Json.Draft
import FuzzBridge.Proofs.Record.Variables
import FuzzBridge.Proofs.Text.Order
import FuzzBridge.Proofs.Text.Utf8
import FuzzBridge.Proofs.Json.Tagged
import FuzzBridge.Proofs.Argument.Form
import FuzzBridge.Proofs.Record.Form
import FuzzBridge.Proofs.Record.RoundTrip
import FuzzBridge.Proofs.Corpus.Variables
import FuzzBridge.Proofs.Solver.Scope
import FuzzBridge.Proofs.Solver.Term
import FuzzBridge.Proofs.Argument.Agreement
import FuzzBridge.Proofs.Argument.Composition
import FuzzBridge.Proofs.Record.Composition
import FuzzBridge.Proofs.Record.Isolation
import FuzzBridge.Proofs.Record.Width
import FuzzBridge.Proofs.Argument.TypeName
import FuzzBridge.Proofs.Record.Signature
import FuzzBridge.Proofs.Storage.Write
import FuzzBridge.Proofs.Storage.Path
import FuzzBridge.Proofs.Storage.Folder
import FuzzBridge.Proofs.Storage.Listing
import FuzzBridge.Proofs.Storage.FreeName
import FuzzBridge.Proofs.Storage.Growth
import FuzzBridge.Proofs.Corpus.Entry
import FuzzBridge.Proofs.Corpus.Templates
import FuzzBridge.Proofs.Corpus.Seeds
import FuzzBridge.Proofs.Corpus.Harvest
import FuzzBridge.Proofs.Record.Faults
import FuzzBridge.Proofs.Campaign.Solving
import FuzzBridge.Proofs.Campaign.Passes
import FuzzBridge.Proofs.Campaign.Report
import FuzzBridge.Proofs.Campaign.Preamble
import FuzzBridge.Proofs.Campaign.Crash
import FuzzBridge.Proofs.Argument.Cells
import FuzzBridge.Proofs.Encoding.Positions
import FuzzBridge.Proofs.Encoding.Declarations
import FuzzBridge.Proofs.Dataflow.Graph
import FuzzBridge.Proofs.Dataflow.Survival
import FuzzBridge.Proofs.Campaign.Extraction
import FuzzBridge.Proofs.Number.Grammar
import FuzzBridge.Proofs.Json.Numeral
import FuzzBridge.Proofs.Json.Number
import FuzzBridge.Proofs.Solver.Answer
import FuzzBridge.Proofs.Number.Complement
import FuzzBridge.Proofs.Number.Hexadecimal
import FuzzBridge.Proofs.Json.Printer
import FuzzBridge.Proofs.Json.Equality
import FuzzBridge.Proofs.Json.Reader
import FuzzBridge.Proofs.Campaign.Addresses
import FuzzBridge.Proofs.Campaign.Counters
import FuzzBridge.Proofs.Json.Limits
