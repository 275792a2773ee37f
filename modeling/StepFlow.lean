import StepFlow.Action
import StepFlow.Action.Descriptor
import StepFlow.Action.Known
import StepFlow.Action.Written
import StepFlow.ActionError
import StepFlow.ActionType
import StepFlow.Binary64
import StepFlow.Broadcast
import StepFlow.Bus
import StepFlow.CommandLine
import StepFlow.CommandLine.Session
import StepFlow.Config
import StepFlow.Control
import StepFlow.Control.Methods
import StepFlow.Control.Store
import StepFlow.Control.Timed
import StepFlow.Control.Timer
import StepFlow.Decimal
import StepFlow.Effect
import StepFlow.Event
import StepFlow.Executor
import StepFlow.ExprOr
import StepFlow.Expression
import StepFlow.Expression.Builtin
import StepFlow.Expression.Error
import StepFlow.Expression.Eval
import StepFlow.Expression.Lexer
import StepFlow.Expression.Parser
import StepFlow.Expression.Token
import StepFlow.Json
import StepFlow.Json.Reader
import StepFlow.Main
import StepFlow.Nested
import StepFlow.Number
import StepFlow.Numeral
import StepFlow.Processor
import StepFlow.Processor.BuiltIn
import StepFlow.Processor.Scripted
import StepFlow.Proofs.Action.Acceptance
import StepFlow.Proofs.Action.Fields
import StepFlow.Proofs.Action.Known
import StepFlow.Proofs.Action.NormalForm
import StepFlow.Proofs.Action.RoundTrip
import StepFlow.Proofs.ActionType
import StepFlow.Proofs.Binary64
import StepFlow.Proofs.Binary64.Exact
import StepFlow.Proofs.Binary64.Nearest
import StepFlow.Proofs.Binary64.Order
import StepFlow.Proofs.Binary64.Rounding
import StepFlow.Proofs.Bus.Draining
import StepFlow.Proofs.Bus.Mailboxes
import StepFlow.Proofs.Bus.Refinement
import StepFlow.Proofs.Bus.Ring
import StepFlow.Proofs.CommandLine.Check
import StepFlow.Proofs.CommandLine.Listening
import StepFlow.Proofs.Control.Dispatch
import StepFlow.Proofs.Expression.Arithmetic
import StepFlow.Proofs.Expression.Brackets
import StepFlow.Proofs.Expression.Comparison
import StepFlow.Proofs.Expression.Completeness
import StepFlow.Proofs.Expression.Grammar
import StepFlow.Proofs.Expression.Height
import StepFlow.Proofs.Expression.Lexeme
import StepFlow.Proofs.Expression.Lexing
import StepFlow.Proofs.Expression.Overrides
import StepFlow.Proofs.Expression.Parsing
import StepFlow.Proofs.Expression.Paths
import StepFlow.Proofs.Expression.Readers
import StepFlow.Proofs.Expression.Safety
import StepFlow.Proofs.Expression.Soundness
import StepFlow.Proofs.Expression.Tokenizing
import StepFlow.Proofs.Expression.Variables
import StepFlow.Proofs.Field
import StepFlow.Proofs.Integers
import StepFlow.Proofs.Namespaces
import StepFlow.Proofs.Object
import StepFlow.Proofs.Outcome
import StepFlow.Proofs.Panic
import StepFlow.Proofs.Regions
import StepFlow.Proofs.Run.Alike
import StepFlow.Proofs.Run.Assignment
import StepFlow.Proofs.Run.Atomic
import StepFlow.Proofs.Run.Clock
import StepFlow.Proofs.Run.Compare
import StepFlow.Proofs.Run.Course
import StepFlow.Proofs.Run.Deadline
import StepFlow.Proofs.Run.Deed
import StepFlow.Proofs.Run.Dispatch
import StepFlow.Proofs.Run.Elapsed
import StepFlow.Proofs.Run.Endings
import StepFlow.Proofs.Run.Execution
import StepFlow.Proofs.Run.Moments
import StepFlow.Proofs.Run.Namespaces
import StepFlow.Proofs.Run.Normalized
import StepFlow.Proofs.Run.Notifications
import StepFlow.Proofs.Run.Quiet
import StepFlow.Proofs.Run.Record
import StepFlow.Proofs.Run.Request
import StepFlow.Proofs.Run.Settle
import StepFlow.Proofs.Run.Spared
import StepFlow.Proofs.Run.Tags
import StepFlow.Proofs.Run.Trace
import StepFlow.Proofs.Run.Visibility
import StepFlow.Proofs.Run.Waits
import StepFlow.Proofs.Run.Watch
import StepFlow.Proofs.Shape
import StepFlow.Proofs.Template.Balanced
import StepFlow.Proofs.Template.Blocks
import StepFlow.Proofs.Template.Braces
import StepFlow.Proofs.Template.Bytes
import StepFlow.Proofs.Template.Containment
import StepFlow.Proofs.Template.Cutting
import StepFlow.Proofs.Template.Embedding
import StepFlow.Proofs.Template.Escape
import StepFlow.Proofs.Template.Interpolation
import StepFlow.Proofs.Template.Nesting
import StepFlow.Proofs.Template.Ranges
import StepFlow.Proofs.Template.Readings
import StepFlow.Proofs.Template.Text
import StepFlow.Proofs.Text.Bytes
import StepFlow.Proofs.Timer.Course
import StepFlow.Proofs.Timer.Limit
import StepFlow.Proofs.Timer.Ticks
import StepFlow.Reader
import StepFlow.Region
import StepFlow.Registry
import StepFlow.Scope
import StepFlow.Shape
import StepFlow.Task
import StepFlow.Template
import StepFlow.Text.Blank
import StepFlow.Text.Case
import StepFlow.Text.CaseTable
import StepFlow.Text.Described
import StepFlow.Text.HiddenTable
import StepFlow.Text.Quoted
import StepFlow.Value
import StepFlow.Vocabulary
import StepFlow.World
import StepFlow.Yaml
import StepFlow.Yaml.Cursor
import StepFlow.Yaml.Lexer
import StepFlow.Yaml.Node
import StepFlow.Yaml.Reader
import StepFlow.Yaml.Scalar
import StepFlow.Yaml.Tag
import StepFlow.Yaml.Token
