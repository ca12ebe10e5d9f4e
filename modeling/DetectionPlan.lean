import DetectionPlan.Anomaly.Basic
import DetectionPlan.Anomaly.Triage
import DetectionPlan.Calendar.Date
import DetectionPlan.Calendar.Instant
import DetectionPlan.Calendar.Reading
import DetectionPlan.Command
import DetectionPlan.Dataset
import DetectionPlan.Decimal.Shortest
import DetectionPlan.Decimal.Text
import DetectionPlan.Detector.Basic
import DetectionPlan.Detector.Builtin
import DetectionPlan.Error
import DetectionPlan.Expansion.Builtin
import DetectionPlan.Expansion.Registry
import DetectionPlan.Expansion.Request
import DetectionPlan.Interval
import DetectionPlan.Json.Basic
import DetectionPlan.Json.Decode
import DetectionPlan.Json.Reader
import DetectionPlan.Json.Writer
import DetectionPlan.Keyed
import DetectionPlan.Main
import DetectionPlan.Operator.Basic
import DetectionPlan.Operator.Builtin
import DetectionPlan.Period.Basic
import DetectionPlan.Period.Bucket
import DetectionPlan.Period.Parser
import DetectionPlan.Plan.Compile
import DetectionPlan.Plan.Execution
import DetectionPlan.Plan.Result
import DetectionPlan.Plan.Schedule
import DetectionPlan.Plan.Spec
import DetectionPlan.Predicate
import DetectionPlan.Proofs.Detector.Judgement
import DetectionPlan.Proofs.Detector.Locality
import DetectionPlan.Proofs.Detector.Samples
import DetectionPlan.Proofs.Detector.Windows
import DetectionPlan.Proofs.Expansion.Argument
import DetectionPlan.Proofs.Expansion.Idempotence
import DetectionPlan.Proofs.Expansion.Leftover
import DetectionPlan.Proofs.Expansion.Placement
import DetectionPlan.Proofs.Expansion.TimeGroup
import DetectionPlan.Proofs.Expansion.TimeQuery
import DetectionPlan.Proofs.Interval
import DetectionPlan.Proofs.Keyed
import DetectionPlan.Proofs.Operator
import DetectionPlan.Proofs.Outcome
import DetectionPlan.Proofs.Period.Component
import DetectionPlan.Proofs.Period.Order
import DetectionPlan.Proofs.Period.Progress
import DetectionPlan.Proofs.Period.Reading
import DetectionPlan.Proofs.Period.Repetition
import DetectionPlan.Proofs.Period.Writing
import DetectionPlan.Proofs.Plan.Acceptance
import DetectionPlan.Proofs.Plan.Agreement
import DetectionPlan.Proofs.Plan.Completion
import DetectionPlan.Proofs.Plan.Declaration
import DetectionPlan.Proofs.Plan.Defaults
import DetectionPlan.Proofs.Plan.Failure
import DetectionPlan.Proofs.Plan.Levels
import DetectionPlan.Proofs.Plan.Naming
import DetectionPlan.Proofs.Plan.Order
import DetectionPlan.Proofs.Plan.Run
import DetectionPlan.Proofs.Plan.Schedule
import DetectionPlan.Proofs.Plan.Tables
import DetectionPlan.Proofs.Plan.Wiring
import DetectionPlan.Proofs.Settings.Loading
import DetectionPlan.Proofs.Settings.Sources
import DetectionPlan.Proofs.Source.Memory
import DetectionPlan.Proofs.Sql.Admission
import DetectionPlan.Proofs.Sql.Applied
import DetectionPlan.Proofs.Sql.Arithmetic
import DetectionPlan.Proofs.Sql.Condition
import DetectionPlan.Proofs.Sql.Conjunction
import DetectionPlan.Proofs.Sql.Filter
import DetectionPlan.Proofs.Sql.Literal
import DetectionPlan.Proofs.Sql.Range
import DetectionPlan.Proofs.Table.Completion
import DetectionPlan.Proofs.Table.Header
import DetectionPlan.Proofs.Table.Limits
import DetectionPlan.Proofs.Table.NestedLoop
import DetectionPlan.Proofs.Table.Places
import DetectionPlan.Proofs.Table.Rectangular
import DetectionPlan.Proofs.Table.Termination
import DetectionPlan.Proofs.TimeExpression.Conversion
import DetectionPlan.Proofs.TimeExpression.Filter
import DetectionPlan.Proofs.TimeExpression.Group
import DetectionPlan.Proofs.TimeFormat.Canonical
import DetectionPlan.Proofs.TimeFormat.Filter
import DetectionPlan.Proofs.TimeFormat.Quoting
import DetectionPlan.Properties
import DetectionPlan.Settings.Configuration
import DetectionPlan.Settings.EnvFile
import DetectionPlan.Settings.Environment
import DetectionPlan.Source
import DetectionPlan.Sql.Dialect
import DetectionPlan.Sql.Filter
import DetectionPlan.Sql.Grammar
import DetectionPlan.Sql.Lexer
import DetectionPlan.Sql.Parser.Basic
import DetectionPlan.Sql.Parser.Expression
import DetectionPlan.Sql.Parser.Query
import DetectionPlan.Sql.Parser.Statement
import DetectionPlan.Sql.Printer
import DetectionPlan.Sql.Replacement
import DetectionPlan.Sql.Shape
import DetectionPlan.Sql.Syntax
import DetectionPlan.Sql.Token
import DetectionPlan.Table.Basic
import DetectionPlan.Table.Cell
import DetectionPlan.Table.Join
import DetectionPlan.Table.TimeIndex
import DetectionPlan.Text.Alphabetic
import DetectionPlan.Text.Blank
import DetectionPlan.Text.CaseTable
import DetectionPlan.Text.Casing
import DetectionPlan.Text.CharSet
import DetectionPlan.Text.Doubling
import DetectionPlan.Text.Number
import DetectionPlan.Text.Parts
import DetectionPlan.Text.Path
import DetectionPlan.Text.Quoted
import DetectionPlan.TimeExpression.Ansi
import DetectionPlan.TimeExpression.Basic
import DetectionPlan.TimeExpression.Pinot
import DetectionPlan.TimeFormat.Basic
import DetectionPlan.TimeFormat.Pattern
import DetectionPlan.Toml.Reader
import DetectionPlan.Toml.Scalar
import DetectionPlan.Toml.Tree
