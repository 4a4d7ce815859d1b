import SchemaMigration.Main
import SchemaMigration.Proofs.Ordering.Component
import SchemaMigration.Proofs.Ordering.RootSearch
import SchemaMigration.Proofs.Ordering.Build
import SchemaMigration.Proofs.Ordering.ExecutionOrder
import SchemaMigration.Proofs.Cycle.Tenure
import SchemaMigration.Proofs.Cycle.Contention
import SchemaMigration.Proofs.Cycle.Exclusion
import SchemaMigration.Proofs.Database.LogTable
import SchemaMigration.Proofs.History.Agreement
import SchemaMigration.Proofs.Session.Marked
import SchemaMigration.Proofs.History.Loading
import SchemaMigration.Proofs.Cycle.Marking
import SchemaMigration.Proofs.History.Executions
import SchemaMigration.Proofs.Database.Serving
import SchemaMigration.Proofs.History.RunOrder
import SchemaMigration.Proofs.History.Mirror
import SchemaMigration.Proofs.Cycle.Opening
import SchemaMigration.Proofs.Cycle.Closing
import SchemaMigration.Proofs.Cycle.Applying
import SchemaMigration.Proofs.History.OrderKept
import SchemaMigration.Proofs.Cycle.Selection
import SchemaMigration.Proofs.Cycle.Enactment
import SchemaMigration.Proofs.Cycle.Resumption
import SchemaMigration.Proofs.Cycle.Outcome
import SchemaMigration.Proofs.Cycle.Prediction
import SchemaMigration.Proofs.Cycle.Stages
import SchemaMigration.Proofs.Cycle.Release
import SchemaMigration.Proofs.Cycle.Completion
import SchemaMigration.Proofs.Cycle.Refusal
import SchemaMigration.Proofs.Database.LockTable
import SchemaMigration.Proofs.Cycle.Clearing
import SchemaMigration.Proofs.Cycle.Repetition
import SchemaMigration.Proofs.Ordering.Lexicographic
import SchemaMigration.Proofs.Ordering.Connection
import SchemaMigration.Proofs.Ordering.Invariance
import SchemaMigration.Proofs.Ordering.Clusters
import SchemaMigration.Proofs.Ordering.Leaf
import SchemaMigration.Proofs.Ordering.Extension
import SchemaMigration.Proofs.Cycle.Insertion
import SchemaMigration.Proofs.Cycle.Probing
import SchemaMigration.Proofs.Cycle.Furnishing
import SchemaMigration.Proofs.Cycle.FirstRun
import SchemaMigration.Proofs.Ordering.Turn
import SchemaMigration.Proofs.Ordering.BreadthFirst
import SchemaMigration.Proofs.Text.Lines
import SchemaMigration.Proofs.Changelog.Outline
import SchemaMigration.Proofs.Changelog.Reading
import SchemaMigration.Proofs.Changelog.Relayout
import SchemaMigration.Proofs.Sql.Command
import SchemaMigration.Proofs.Sql.Execution
import SchemaMigration.Proofs.Database.Server
import SchemaMigration.Proofs.History.Represents
import SchemaMigration.Proofs.History.Refinement
import SchemaMigration.Proofs.Migration.Body
import SchemaMigration.Proofs.Text.Words
import SchemaMigration.Proofs.Migration.ParameterText
import SchemaMigration.Proofs.Changelog.HeaderLine
import SchemaMigration.Proofs.FileSystem.Components
import SchemaMigration.Proofs.FileSystem.PathOrder
import SchemaMigration.Proofs.FileSystem.Resolution
import SchemaMigration.Proofs.Changelog.Discovery
import SchemaMigration.Proofs.Changelog.Listing
import SchemaMigration.Proofs.Changelog.Relocation
import SchemaMigration.Proofs.Changelog.Loading
import SchemaMigration.Proofs.Cycle.Validation
import SchemaMigration.Proofs.Database.Finishing
import SchemaMigration.Proofs.Cycle.Execution
import SchemaMigration.Proofs.Cycle.Acquisition
import SchemaMigration.Proofs.Sql.Placeholder
import SchemaMigration.Proofs.Database.Redaction
import SchemaMigration.Proofs.Sql.Token
import SchemaMigration.Proofs.Settings.Resolution
import SchemaMigration.Proofs.Sql.Instants
import SchemaMigration.Proofs.Sql.Integers
import SchemaMigration.Proofs.Ordering.Neighbours
import SchemaMigration.Proofs.History.InStep
import SchemaMigration.Proofs.Cycle.Noting
import SchemaMigration.Proofs.Cycle.Moments
