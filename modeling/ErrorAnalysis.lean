import ErrorAnalysis.Number.Basic
import ErrorAnalysis.Number.Notation
import ErrorAnalysis.Text.CharClass
import ErrorAnalysis.Text.Alphabetic
import ErrorAnalysis.Text.Printable
import ErrorAnalysis.Text.Case
import ErrorAnalysis.Text.Blank
import ErrorAnalysis.Text.Quoted
import ErrorAnalysis.Command
import ErrorAnalysis.Json.Basic
import ErrorAnalysis.Json.Number
import ErrorAnalysis.Json.Reader
import ErrorAnalysis.Json.Writer
import ErrorAnalysis.Assoc
import ErrorAnalysis.InstanceKey
import ErrorAnalysis.Document.Word
import ErrorAnalysis.Value.Basic
import ErrorAnalysis.Document.Basic
import ErrorAnalysis.Value.Compare
import ErrorAnalysis.Json.Record
import ErrorAnalysis.Document.WordJson
import ErrorAnalysis.Value.Json
import ErrorAnalysis.Token.Basic
import ErrorAnalysis.Token.Lexer
import ErrorAnalysis.Parser
import ErrorAnalysis.Expr.Basic
import ErrorAnalysis.Expr.Printer
import ErrorAnalysis.Expr.Grammar
import ErrorAnalysis.Query
import ErrorAnalysis.Eval.Error
import ErrorAnalysis.Eval.Operation
import ErrorAnalysis.Pattern
import ErrorAnalysis.Stats
import ErrorAnalysis.SortedSet
import ErrorAnalysis.Dataset.Instance
import ErrorAnalysis.Dataset.Basic
import ErrorAnalysis.Dataset.Json
import ErrorAnalysis.Config
import ErrorAnalysis.PatternCache
import ErrorAnalysis.Traced
import ErrorAnalysis.Function.Args
import ErrorAnalysis.Function.Basic
import ErrorAnalysis.Function.Binding
import ErrorAnalysis.Choice
import ErrorAnalysis.Ambient
import ErrorAnalysis.Builtin.Basic
import ErrorAnalysis.Builtin.Documents
import ErrorAnalysis.Builtin.Annotations
import ErrorAnalysis.Builtin.Answers
import ErrorAnalysis.Builtin.Metadata
import ErrorAnalysis.Builtin.Plain
import ErrorAnalysis.Builtin.Catalogue
import ErrorAnalysis.Block.Basic
import ErrorAnalysis.Registry
import ErrorAnalysis.Eval.Scope
import ErrorAnalysis.Eval.Basic
import ErrorAnalysis.Error
import ErrorAnalysis.Query.Compile
import ErrorAnalysis.Eval.Batch
import ErrorAnalysis.Block.Create
import ErrorAnalysis.Block.Attribute
import ErrorAnalysis.Block.Group
import ErrorAnalysis.Block.Json
import ErrorAnalysis.CommandLine.Options
import ErrorAnalysis.CommandLine.Basic
import ErrorAnalysis.Main
import ErrorAnalysis.Proofs.Number.Rounding
import ErrorAnalysis.Proofs.Number.Shortest
import ErrorAnalysis.Proofs.Lexing.Characters
import ErrorAnalysis.Proofs.Lexing.Numeral
import ErrorAnalysis.Proofs.Grammar.Combinators
import ErrorAnalysis.Proofs.Grammar.Completeness
import ErrorAnalysis.Proofs.Lexing.Layout
import ErrorAnalysis.Proofs.Lexing.Legible
import ErrorAnalysis.Proofs.Printing.Idempotence
import ErrorAnalysis.Proofs.Blocks.Memoization
import ErrorAnalysis.Proofs.Syntax.Equality
import ErrorAnalysis.Proofs.Evaluation.Binding
import ErrorAnalysis.Proofs.Functions.Precedence
import ErrorAnalysis.Proofs.Functions.Aliases
import ErrorAnalysis.Proofs.Dependencies.Flags
import ErrorAnalysis.Proofs.Dependencies.Edit
import ErrorAnalysis.Proofs.Dependencies.Model
import ErrorAnalysis.Proofs.Blocks.Histories
import ErrorAnalysis.Proofs.Blocks.Stores
import ErrorAnalysis.Proofs.Blocks.Reuse
import ErrorAnalysis.Proofs.Evaluation.Runs
import ErrorAnalysis.Proofs.Evaluation.Variants
import ErrorAnalysis.Proofs.Syntax.Contexts
import ErrorAnalysis.Proofs.Evaluation.Laws
import ErrorAnalysis.Proofs.Functions.Failures
import ErrorAnalysis.Proofs.Blocks.Replay
import ErrorAnalysis.Proofs.Blocks.Export
import ErrorAnalysis.Proofs.Blocks.Membership
import ErrorAnalysis.Proofs.Evaluation.Depth
import ErrorAnalysis.Proofs.Evaluation.Ranks
import ErrorAnalysis.Proofs.Evaluation.Fuel
import ErrorAnalysis.Proofs.Evaluation.Locality
import ErrorAnalysis.Proofs.Json.Values
import ErrorAnalysis.Proofs.Evaluation.Fallbacks
import ErrorAnalysis.Proofs.Lexing.Insertion
import ErrorAnalysis.Proofs.Grammar.Termination
import ErrorAnalysis.Proofs.Blocks.Records
import ErrorAnalysis.Proofs.Blocks.Shares
import ErrorAnalysis.Proofs.Documents.Sentences
import ErrorAnalysis.Proofs.Documents.Matches
import ErrorAnalysis.Proofs.Documents.Selection
import ErrorAnalysis.Proofs.Documents.Starts
import ErrorAnalysis.Proofs.Documents.Offsets
import ErrorAnalysis.Proofs.Documents.Distances
import ErrorAnalysis.Proofs.Documents.Overlap
import ErrorAnalysis.Proofs.Blocks.Discretization
import ErrorAnalysis.Proofs.Lexing.Literals
import ErrorAnalysis.Proofs.Data.Insertions
import ErrorAnalysis.Proofs.Grammar.Outcomes
import ErrorAnalysis.Proofs.Grammar.Progress
import ErrorAnalysis.Proofs.Evaluation.Caching
import ErrorAnalysis.Proofs.Blocks.Sessions
import ErrorAnalysis.Proofs.Statistics.Tables
import ErrorAnalysis.Proofs.Documents.PlainText
