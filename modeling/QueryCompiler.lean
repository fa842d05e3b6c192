import QueryCompiler.Clause.Basic
import QueryCompiler.Clause.Eval
import QueryCompiler.Clause.Subqueries
import QueryCompiler.CommandLine.Arguments
import QueryCompiler.CommandLine.Run
import QueryCompiler.Compile.Change
import QueryCompiler.Compile.Names
import QueryCompiler.Compile.Scalar
import QueryCompiler.Compile.Select
import QueryCompiler.Compile.Step
import QueryCompiler.CompileError
import QueryCompiler.Compiler
import QueryCompiler.Config
import QueryCompiler.Context
import QueryCompiler.Dialect
import QueryCompiler.Expr.Basic
import QueryCompiler.Expr.Describe
import QueryCompiler.Json.Basic
import QueryCompiler.Json.Decode
import QueryCompiler.Json.Document
import QueryCompiler.Json.Reader
import QueryCompiler.Main
import QueryCompiler.Number.Binary64
import QueryCompiler.Number.Decimal
import QueryCompiler.Number.Layout
import QueryCompiler.Number.Reading
import QueryCompiler.Operator
import QueryCompiler.Plan.Basic
import QueryCompiler.Plan.Build
import QueryCompiler.Proofs.Aggregates
import QueryCompiler.Proofs.Aliases
import QueryCompiler.Proofs.Building
import QueryCompiler.Proofs.Characters
import QueryCompiler.Proofs.ClauseRule
import QueryCompiler.Proofs.Courses
import QueryCompiler.Proofs.Depth
import QueryCompiler.Proofs.DialectIndependence
import QueryCompiler.Proofs.Display
import QueryCompiler.Proofs.Failures
import QueryCompiler.Proofs.Filters.Agreement
import QueryCompiler.Proofs.Filters.Conjuncts
import QueryCompiler.Proofs.Forms
import QueryCompiler.Proofs.Fusion.Equations
import QueryCompiler.Proofs.Fusion.NormalForm
import QueryCompiler.Proofs.Fusion.Passes
import QueryCompiler.Proofs.Fusion.Runs
import QueryCompiler.Proofs.GivenNames
import QueryCompiler.Proofs.Grounding
import QueryCompiler.Proofs.Grouping.Keys
import QueryCompiler.Proofs.Grouping.Renumbering
import QueryCompiler.Proofs.Grouping.Texts
import QueryCompiler.Proofs.Growth
import QueryCompiler.Proofs.IdentityIndependence
import QueryCompiler.Proofs.Indentation
import QueryCompiler.Proofs.Isolation.Allocation
import QueryCompiler.Proofs.Isolation.Scripts
import QueryCompiler.Proofs.Isolation.Tables
import QueryCompiler.Proofs.Layout.Clauses
import QueryCompiler.Proofs.Layout.Spine
import QueryCompiler.Proofs.Layout.Statements
import QueryCompiler.Proofs.Layout.StrayHaving
import QueryCompiler.Proofs.Leaves
import QueryCompiler.Proofs.Likeness.Change
import QueryCompiler.Proofs.Likeness.Compile
import QueryCompiler.Proofs.Likeness.Exprs
import QueryCompiler.Proofs.Likeness.Identities
import QueryCompiler.Proofs.Likeness.Literals
import QueryCompiler.Proofs.Likeness.Steps
import QueryCompiler.Proofs.Likeness.Terms
import QueryCompiler.Proofs.Lines.Compile
import QueryCompiler.Proofs.Lines.Labels
import QueryCompiler.Proofs.Lines.Names
import QueryCompiler.Proofs.Lines.Outline
import QueryCompiler.Proofs.Lines.Render
import QueryCompiler.Proofs.Lines.Text
import QueryCompiler.Proofs.LiteralIndependence
import QueryCompiler.Proofs.Lookups.Compile
import QueryCompiler.Proofs.Lookups.Inventory
import QueryCompiler.Proofs.Lookups.Visits
import QueryCompiler.Proofs.Naming
import QueryCompiler.Proofs.Nesting
import QueryCompiler.Proofs.Nulls.Compile
import QueryCompiler.Proofs.Nulls.Tests
import QueryCompiler.Proofs.Opacity
import QueryCompiler.Proofs.Outputs
import QueryCompiler.Proofs.PassedRows
import QueryCompiler.Proofs.Placeholders.Binding
import QueryCompiler.Proofs.Placeholders.Capture
import QueryCompiler.Proofs.Placeholders.Compile
import QueryCompiler.Proofs.Placeholders.Correspondence
import QueryCompiler.Proofs.Placeholders.Order
import QueryCompiler.Proofs.Placeholders.Render
import QueryCompiler.Proofs.Placeholders.Scan
import QueryCompiler.Proofs.Placeholders.Tidy
import QueryCompiler.Proofs.Placement
import QueryCompiler.Proofs.PlanFailures
import QueryCompiler.Proofs.QualifiedNames
import QueryCompiler.Proofs.Redirection
import QueryCompiler.Proofs.Relabelling.Building
import QueryCompiler.Proofs.Relabelling.Compile
import QueryCompiler.Proofs.Rules
import QueryCompiler.Proofs.Scoping.Compile
import QueryCompiler.Proofs.Scoping.Ledger
import QueryCompiler.Proofs.Scoping.Plain
import QueryCompiler.Proofs.Scoping.Plans
import QueryCompiler.Proofs.Scoping.Reads
import QueryCompiler.Proofs.Scoping.References
import QueryCompiler.Proofs.Sealing.Clauses
import QueryCompiler.Proofs.Sealing.Leaks
import QueryCompiler.Proofs.Sealing.Replay
import QueryCompiler.Proofs.SourceRows
import QueryCompiler.Proofs.Steps
import QueryCompiler.Proofs.Threading
import QueryCompiler.Proofs.Unambiguity.Reader
import QueryCompiler.Proofs.Unambiguity.Tokens
import QueryCompiler.Proofs.Unambiguity.Trees
import QueryCompiler.Proofs.UniqueNames
import QueryCompiler.Proofs.Visits
import QueryCompiler.Proofs.Wrapping
import QueryCompiler.Query.Block
import QueryCompiler.Query.Normalize
import QueryCompiler.Query.Shape
import QueryCompiler.Row
import QueryCompiler.Sql.Render
import QueryCompiler.Sql.Syntax
import QueryCompiler.Statement
import QueryCompiler.Supply
import QueryCompiler.Terminal.Control
import QueryCompiler.Terminal.Message
import QueryCompiler.Text.Case
import QueryCompiler.Text.CasePairs
import QueryCompiler.Text.Classes
import QueryCompiler.Text.Quoted
import QueryCompiler.Trace
import QueryCompiler.Value
