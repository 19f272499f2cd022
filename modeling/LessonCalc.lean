import LessonCalc.Main
import LessonCalc.Proofs.Formula.Chain
import LessonCalc.Proofs.Formula.Clean
import LessonCalc.Proofs.Formula.Strict
import LessonCalc.Proofs.Number.Literal
import LessonCalc.Proofs.Formula.Neighbours
import LessonCalc.Proofs.Formula.Lexing
import LessonCalc.Proofs.Formula.Acceptance
import LessonCalc.Proofs.Formula.Levels
import LessonCalc.Proofs.Number.Binary64
import LessonCalc.Proofs.Formula.Value
import LessonCalc.Proofs.Formula.Cursor
import LessonCalc.Proofs.Formula.Inlining
import LessonCalc.Proofs.Data.Entries
import LessonCalc.Proofs.Tool.Coercion
import LessonCalc.Proofs.Tool.Trace
import LessonCalc.Proofs.Tool.References
import LessonCalc.Proofs.Tool.Reordering
import LessonCalc.Proofs.Batch.Spread
import LessonCalc.Proofs.Batch.Rows
import LessonCalc.Proofs.Json.Places
import LessonCalc.Proofs.Event.Redaction
import LessonCalc.Proofs.Number.Rounding
import LessonCalc.Proofs.Number.Parts
import LessonCalc.Proofs.Number.Scientific
import LessonCalc.Proofs.Number.Shortest
import LessonCalc.Proofs.Number.Layout
import LessonCalc.Proofs.Json.Numbers
import LessonCalc.Proofs.Json.Strings
import LessonCalc.Proofs.Json.RoundTrip
import LessonCalc.Proofs.Json.Sorted
import LessonCalc.Proofs.Text.Lines
import LessonCalc.Proofs.Json.Printed
import LessonCalc.Proofs.Files.Tree
import LessonCalc.Proofs.Event.Line
import LessonCalc.Proofs.Event.Additions
import LessonCalc.Proofs.Event.Writers
import LessonCalc.Proofs.Event.Reading
import LessonCalc.Proofs.Event.Tail
import LessonCalc.Proofs.Event.Queries
import LessonCalc.Proofs.Event.Completeness
import LessonCalc.Proofs.Formula.Spelling
import LessonCalc.Proofs.Formula.Turns
import LessonCalc.Proofs.Formula.Printing
import LessonCalc.Proofs.Tool.Run
import LessonCalc.Proofs.Tool.Slices
import LessonCalc.Proofs.Number.Range
import LessonCalc.Proofs.Tool.Totality
import LessonCalc.Proofs.Number.Zeros
import LessonCalc.Proofs.Formula.Conversion
import LessonCalc.Proofs.Number.Sign
import LessonCalc.Proofs.Tool.Display
import LessonCalc.Proofs.Tool.Placeholder
import LessonCalc.Proofs.Files.Folders
import LessonCalc.Proofs.Files.Beside
import LessonCalc.Proofs.Event.Opened
import LessonCalc.Proofs.Event.Growth
import LessonCalc.Proofs.Event.Context
import LessonCalc.Proofs.Project.Session
import LessonCalc.Proofs.Project.Scaffold
import LessonCalc.Proofs.Project.Loading
import LessonCalc.Proofs.Project.Lint
import LessonCalc.Proofs.Batch.Lifecycle
import LessonCalc.Proofs.Formula.Begun
import LessonCalc.Proofs.Formula.Refusal
import LessonCalc.Proofs.Formula.FirstProblem
import LessonCalc.Proofs.Batch.Columns
import LessonCalc.Proofs.Project.Calls
import LessonCalc.Proofs.Batch.Alone
import LessonCalc.Proofs.Number.Exact
import LessonCalc.Proofs.Number.Precision
import LessonCalc.Proofs.Tool.Amount
import LessonCalc.Proofs.CommandLine.Events
import LessonCalc.Proofs.Event.Limits
import LessonCalc.Proofs.Formula.Separators
import LessonCalc.Proofs.Number.Decimal
import LessonCalc.Proofs.Number.Typed
import LessonCalc.Proofs.Number.Written
import LessonCalc.Proofs.Tool.Texts
import LessonCalc.Proofs.Formula.Spans
import LessonCalc.Proofs.Formula.Closing
import LessonCalc.Proofs.Formula.Leftover
import LessonCalc.Proofs.Event.Memory
import LessonCalc.Proofs.Event.Repeated
import LessonCalc.Proofs.Text.Order
import LessonCalc.Proofs.Json.Canonical
import LessonCalc.Proofs.Event.Canonical
import LessonCalc.Proofs.Project.Listing
