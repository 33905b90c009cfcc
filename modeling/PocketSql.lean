import PocketSql.Engine
import PocketSql.Error
import PocketSql.Execution
import PocketSql.Json.Basic
import PocketSql.Json.Reader
import PocketSql.Number.Binary64
import PocketSql.Number.DecimalText
import PocketSql.Number.Integer
import PocketSql.Number.Shortest
import PocketSql.Ordering
import PocketSql.Predicate.Basic
import PocketSql.Predicate.Grammar
import PocketSql.Predicate.Reader
import PocketSql.Profile
import PocketSql.Relation
import PocketSql.Sample
import PocketSql.Settings
import PocketSql.Shell.Basic
import PocketSql.Shell.Options
import PocketSql.Shell.Program
import PocketSql.Statement.Basic
import PocketSql.Statement.ColumnReader
import PocketSql.Statement.Printer
import PocketSql.Statement.Reader
import PocketSql.Store
import PocketSql.Table.Basic
import PocketSql.Table.Column
import PocketSql.Table.ColumnType
import PocketSql.Table.KeySet
import PocketSql.Table.Row
import PocketSql.Table.Schema
import PocketSql.Text.Basic
import PocketSql.Text.Name
import PocketSql.Time.Calendar
import PocketSql.Time.Timestamp
import PocketSql.Token.Basic
import PocketSql.Token.Lexer
import PocketSql.Token.Reader
import PocketSql.Value.Basic
import PocketSql.Value.Compare
import PocketSql.Main
import PocketSql.Proofs.Table.Insertion
import PocketSql.Proofs.Table.Changes
import PocketSql.Proofs.Store.Change
import PocketSql.Proofs.Store.Validity
import PocketSql.Proofs.Store.Batch
import PocketSql.Proofs.Table.Assignment
import PocketSql.Proofs.Store.Matching
import PocketSql.Proofs.Number.Rounding
import PocketSql.Proofs.Store.Frame
import PocketSql.Proofs.Store.Success
import PocketSql.Proofs.Table.Lookup
import PocketSql.Proofs.Predicate.IntegerComparison
import PocketSql.Proofs.Predicate.Tests
import PocketSql.Proofs.Predicate.Clause
import PocketSql.Proofs.Table.Fitting
import PocketSql.Proofs.Store.Retrieval
import PocketSql.Proofs.Statement.SingleStatement
import PocketSql.Proofs.Store.NumericKeys
import PocketSql.Proofs.Store.Acceptance
import PocketSql.Proofs.Statement.RoundTrip
import PocketSql.Proofs.Statement.TableRoundTrip
import PocketSql.Proofs.Ordering.Rearrangement
import PocketSql.Proofs.Ordering.Merging
import PocketSql.Proofs.Ordering.Runs
import PocketSql.Proofs.Ordering.Ranking
import PocketSql.Proofs.Ordering.Scale
import PocketSql.Proofs.Store.Edit
import PocketSql.Proofs.Store.Commute
import PocketSql.Proofs.Table.Coercion
import PocketSql.Proofs.Statement.Defaults
import PocketSql.Proofs.Store.Coercion
import PocketSql.Proofs.Store.Catalog
import PocketSql.Proofs.Store.History
import PocketSql.Proofs.Store.Numbering
import PocketSql.Proofs.Store.Paging
import PocketSql.Proofs.Token.Endings
import PocketSql.Proofs.Token.Separation
import PocketSql.Proofs.Statement.Places
import PocketSql.Proofs.Token.Kinds
import PocketSql.Proofs.Token.Squeezing
import PocketSql.Proofs.Shell.Entry
import PocketSql.Proofs.Ordering.Stability
import PocketSql.Proofs.Table.Cells
import PocketSql.Proofs.Store.Repetition
import PocketSql.Proofs.Store.GivenValues
import PocketSql.Proofs.Store.ColumnOrder
import PocketSql.Proofs.Predicate.Size
import PocketSql.Proofs.Statement.FirstToken
import PocketSql.Proofs.Store.Required
import PocketSql.Proofs.Number.Shown
import PocketSql.Proofs.Token.Trimming
import PocketSql.Proofs.Predicate.Coherence
import PocketSql.Proofs.Store.Profiling
import PocketSql.Proofs.Token.Settling
import PocketSql.Proofs.Statement.ClauseRemoval
import PocketSql.Proofs.Token.Rendering
import PocketSql.Proofs.Statement.ColumnList
import PocketSql.Proofs.Statement.Constraints
import PocketSql.Proofs.Statement.SkippedGroups
import PocketSql.Proofs.Store.Duplicates
import PocketSql.Proofs.Token.Placement
import PocketSql.Proofs.Number.Literals
import PocketSql.Proofs.Time.Calendar
import PocketSql.Proofs.Time.Chronology
import PocketSql.Proofs.Predicate.Dependence
