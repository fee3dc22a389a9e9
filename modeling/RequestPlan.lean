import RequestPlan.Catalog.Basic
import RequestPlan.Catalog.Declaration
import RequestPlan.Catalog.Entity
import RequestPlan.Catalog.Hooks
import RequestPlan.Catalog.Schema
import RequestPlan.Catalog.Table
import RequestPlan.Command
import RequestPlan.Decimal.Binary
import RequestPlan.Decimal.Layout
import RequestPlan.Decimal.Reader
import RequestPlan.Decimal.Shortest
import RequestPlan.Dict
import RequestPlan.Error
import RequestPlan.Filter.Compiled
import RequestPlan.Filter.Key
import RequestPlan.Filter.Mode
import RequestPlan.Filter.Reading
import RequestPlan.Joins
import RequestPlan.Json.Basic
import RequestPlan.Json.Plan
import RequestPlan.Json.Reader
import RequestPlan.Json.Record
import RequestPlan.Json.Token
import RequestPlan.Link
import RequestPlan.Main
import RequestPlan.Paging
import RequestPlan.Parameters
import RequestPlan.Plan
import RequestPlan.Plan.Receiver
import RequestPlan.Planner
import RequestPlan.Predicate
import RequestPlan.Projection
import RequestPlan.Proofs.Catalog
import RequestPlan.Proofs.Filter.Compiled
import RequestPlan.Proofs.Filter.Key
import RequestPlan.Proofs.Predicate
import RequestPlan.Proofs.Registry.Caches
import RequestPlan.Proofs.Registry.Direct
import RequestPlan.Proofs.Sql.Builder
import RequestPlan.Proofs.Sql.Clause
import RequestPlan.Proofs.Sql.Erasure
import RequestPlan.Proofs.Sql.Meaning
import RequestPlan.Proofs.Sql.Places
import RequestPlan.Proofs.Sql.Reading
import RequestPlan.Proofs.Sql.Words
import RequestPlan.Proofs.Text
import RequestPlan.Registry
import RequestPlan.Report.Format
import RequestPlan.Report.Grid
import RequestPlan.Selection.Expand
import RequestPlan.Selection.Glob
import RequestPlan.Selection.Pattern
import RequestPlan.Selection.Project
import RequestPlan.Selection.Scope
import RequestPlan.Selection.Tree
import RequestPlan.Settings
import RequestPlan.Sorting
import RequestPlan.Sql.Builder
import RequestPlan.Sql.Condition
import RequestPlan.Sql.Statement
import RequestPlan.Text.Blank
import RequestPlan.Text.Case
import RequestPlan.Text.CaseTable
import RequestPlan.Text.Percent
import RequestPlan.Text.PrintableTable
import RequestPlan.Text.Quoted
import RequestPlan.Text.Ranges
import RequestPlan.Text.Split
import RequestPlan.Text.Utf8
import RequestPlan.Text.Width
import RequestPlan.Text.WidthTable
import RequestPlan.Time.Calendar
import RequestPlan.Time.Instant
import RequestPlan.Time.Reader
import RequestPlan.Value
import RequestPlan.Work
import RequestPlan.Proofs.Outcome
import RequestPlan.Proofs.Selection.Patterns
import RequestPlan.Proofs.Selection.Aliases
import RequestPlan.Proofs.Selection.Tree
import RequestPlan.Proofs.Selection.Expand
import RequestPlan.Proofs.Projection
import RequestPlan.Proofs.Selection.Project
import RequestPlan.Proofs.Selection.Fits
import RequestPlan.Proofs.Selection.Resolve
import RequestPlan.Proofs.Planner.Calls
import RequestPlan.Proofs.Sorting.Steps
import RequestPlan.Proofs.Planner.Projection
import RequestPlan.Proofs.Work
import RequestPlan.Proofs.Planner.Plans
import RequestPlan.Proofs.Joins.Paths
import RequestPlan.Proofs.Joins.Measured
import RequestPlan.Proofs.Joins.Steps
import RequestPlan.Proofs.Joins.Route
import RequestPlan.Proofs.Joins.Faithful
import RequestPlan.Proofs.Joins.Memo
import RequestPlan.Proofs.Joins.Aliases
import RequestPlan.Proofs.Joins.Kept
import RequestPlan.Proofs.Joins.History
import RequestPlan.Proofs.Joins.Prefixes
import RequestPlan.Proofs.Columns.Qualified
import RequestPlan.Proofs.Columns.Filters
import RequestPlan.Proofs.Columns.Subqueries
import RequestPlan.Proofs.Columns.Joins
import RequestPlan.Proofs.Columns.Projections
import RequestPlan.Proofs.Columns.Calls
import RequestPlan.Proofs.Columns.Plans
import RequestPlan.Proofs.Sql.Levels
import RequestPlan.Proofs.Sql.Selects
import RequestPlan.Proofs.Columns.Statements
import RequestPlan.Proofs.Planner.Aliases
import RequestPlan.Proofs.Planner.Concerns
import RequestPlan.Proofs.Planner.Failures
import RequestPlan.Proofs.Filter.Chains
import RequestPlan.Proofs.Registry.Reads
import RequestPlan.Proofs.Planner.Uses
import RequestPlan.Proofs.Planner.Lookups
import RequestPlan.Proofs.Planner.Runs
import RequestPlan.Proofs.Registry.Growth
import RequestPlan.Proofs.Registry.Tables
import RequestPlan.Proofs.Registry.Counts
import RequestPlan.Proofs.Registry.Bound
import RequestPlan.Proofs.Plan.Receiver
import RequestPlan.Proofs.Projection.Addresses
import RequestPlan.Proofs.Sql.Nodes
import RequestPlan.Proofs.Text.Marks
import RequestPlan.Proofs.Planner.FilterAliases
import RequestPlan.Proofs.Sorting.Aliases
import RequestPlan.Proofs.Sorting.Tokens
import RequestPlan.Proofs.Selection.Remove
import RequestPlan.Proofs.Selection.Order
import RequestPlan.Proofs.Selection.Lattice
import RequestPlan.Proofs.Selection.Unions
import RequestPlan.Proofs.Planner.Selects
import RequestPlan.Proofs.Planner.Unselect
import RequestPlan.Proofs.Dict
import RequestPlan.Proofs.Json.Reordered
import RequestPlan.Proofs.Json.Predicates
import RequestPlan.Proofs.Json.Plan
import RequestPlan.Proofs.Text.Percent
import RequestPlan.Proofs.Parameters
import RequestPlan.Proofs.Planner.Branches
import RequestPlan.Proofs.Planner.Growing
import RequestPlan.Proofs.Sorting.Declared
import RequestPlan.Proofs.Planner.Sorts
import RequestPlan.Proofs.Catalog.Declarations
import RequestPlan.Proofs.Joins.Errors
import RequestPlan.Proofs.Planner.Errors
import RequestPlan.Proofs.Planner.Undeclared
import RequestPlan.Proofs.Columns.Names
import RequestPlan.Proofs.Registry.Relations
import RequestPlan.Proofs.Joins.Links
import RequestPlan.Proofs.Text.Case
import RequestPlan.Proofs.Text.Blank
import RequestPlan.Proofs.Catalog.Shorthand
import RequestPlan.Proofs.Selection.Malformed
import RequestPlan.Proofs.Filter.Texts
import RequestPlan.Proofs.Catalog.Spelling
import RequestPlan.Proofs.Joins.Spelling
import RequestPlan.Proofs.Registry.Spelling
import RequestPlan.Proofs.Paging
import RequestPlan.Proofs.Planner.Pages
