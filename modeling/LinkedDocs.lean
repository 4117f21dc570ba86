import LinkedDocs.Collection.Basic
import LinkedDocs.Collection.Insertion
import LinkedDocs.Collection.LazyDocuments
import LinkedDocs.Collection.Normalization
import LinkedDocs.Collection.Query
import LinkedDocs.Collection.References
import LinkedDocs.Collection.Removal
import LinkedDocs.Collection.Selection
import LinkedDocs.CommandLine.Arguments
import LinkedDocs.CommandLine.Command
import LinkedDocs.CommandLine.Run
import LinkedDocs.Error
import LinkedDocs.FileTree
import LinkedDocs.Filter
import LinkedDocs.Graph
import LinkedDocs.Graph.Updater
import LinkedDocs.Identifier
import LinkedDocs.Json.Basic
import LinkedDocs.Json.Comparison
import LinkedDocs.Json.Reader
import LinkedDocs.Json.Text
import LinkedDocs.Json.Walk
import LinkedDocs.Main
import LinkedDocs.NameMap
import LinkedDocs.Number.Double
import LinkedDocs.Number.Shortest
import LinkedDocs.Path
import LinkedDocs.Projection
import LinkedDocs.Regex.Basic
import LinkedDocs.Regex.Class
import LinkedDocs.Platform.Basic
import LinkedDocs.Regex.Pattern
import LinkedDocs.Platform.Native
import LinkedDocs.Schema.Basic
import LinkedDocs.Schema.Load
import LinkedDocs.Schema.Reader
import LinkedDocs.Selector.Basic
import LinkedDocs.Selector.Lexeme
import LinkedDocs.Selector.Outline
import LinkedDocs.Selector.Parser
import LinkedDocs.Selector.Predicate
import LinkedDocs.Selector.Symbol
import LinkedDocs.Selector.Template
import LinkedDocs.Store.Basic
import LinkedDocs.Store.Session
import LinkedDocs.Text.CaseFolding
import LinkedDocs.Text.Category
import LinkedDocs.Text.Category.Invisible
import LinkedDocs.Text.Category.Letter
import LinkedDocs.Text.Category.Mark
import LinkedDocs.Text.Category.Numeral
import LinkedDocs.Text.Category.Punctuation
import LinkedDocs.Text.Category.Sign
import LinkedDocs.Text.CodeRange
import LinkedDocs.Update
import LinkedDocs.Yaml.Cursor
import LinkedDocs.Yaml.Reader
import LinkedDocs.Yaml.Scalar
import LinkedDocs.Proofs.Store.Reading
import LinkedDocs.Proofs.Collection.Reading
import LinkedDocs.Proofs.Json.SameValue
import LinkedDocs.Proofs.NameMap
import LinkedDocs.Proofs.Outcome
import LinkedDocs.Proofs.Selector.WellFormed
import LinkedDocs.Proofs.Path
import LinkedDocs.Proofs.Projection.Absorb
import LinkedDocs.Proofs.Projection.Part
import LinkedDocs.Proofs.Projection.Restricting
import LinkedDocs.Proofs.Selection.Coverage
import LinkedDocs.Proofs.Selection.Pushdown
import LinkedDocs.Proofs.Graph.Built
import LinkedDocs.Proofs.Filter.Membership
import LinkedDocs.Proofs.Removal.Advance
import LinkedDocs.Proofs.Removal.Walk
import LinkedDocs.Proofs.Removal.Termination
import LinkedDocs.Proofs.Removal.Closure
import LinkedDocs.Proofs.Removal.Rejection
import LinkedDocs.Proofs.Json.Reaching
import LinkedDocs.Proofs.Json.Shrinking
import LinkedDocs.Proofs.Filter.Reaching
import LinkedDocs.Proofs.Update.Erasing
import LinkedDocs.Proofs.Update.Detaching
import LinkedDocs.Proofs.Removal.Detaching
import LinkedDocs.Proofs.Removal.Execution
import LinkedDocs.Proofs.Removal.Dangling
import LinkedDocs.Proofs.Filter.Nesting
import LinkedDocs.Proofs.Selector.Lexing
import LinkedDocs.Proofs.Selector.Grammar
import LinkedDocs.Proofs.Selector.Soundness
import LinkedDocs.Proofs.Selector.Completeness
import LinkedDocs.Proofs.Selector.Producing
import LinkedDocs.Proofs.Selector.Separation
import LinkedDocs.Proofs.Selector.Chaining
import LinkedDocs.Proofs.Store.Identity
import LinkedDocs.Proofs.Insertion.Leading
import LinkedDocs.Proofs.Insertion.Verification
import LinkedDocs.Proofs.Insertion.Extension
import LinkedDocs.Proofs.Insertion.Nested
import LinkedDocs.Proofs.Insertion.Rollback
import LinkedDocs.Proofs.Insertion.Writing
import LinkedDocs.Proofs.Insertion.Runs
import LinkedDocs.Proofs.Selector.Continuation
import LinkedDocs.Proofs.Selector.Splicing
import LinkedDocs.Proofs.References.Paging
import LinkedDocs.Proofs.References.Scanning
import LinkedDocs.Proofs.Json.Trimming
import LinkedDocs.Proofs.Removal.Scheduling
import LinkedDocs.Proofs.Update.Completing
import LinkedDocs.Proofs.Removal.Completion
import LinkedDocs.Proofs.Selection.Joining
import LinkedDocs.Proofs.Filter.Scalars
import LinkedDocs.Proofs.Removal.Surviving
import LinkedDocs.Proofs.Removal.Resuming
import LinkedDocs.Proofs.Json.Content
import LinkedDocs.Proofs.Json.Cutting
import LinkedDocs.Proofs.Json.Mapping
import LinkedDocs.Proofs.Json.Ends
import LinkedDocs.Proofs.Update.Following
import LinkedDocs.Proofs.Update.Cutting
import LinkedDocs.Proofs.Update.Clearing
import LinkedDocs.Proofs.Removal.Cutting
import LinkedDocs.Proofs.Removal.Positions
import LinkedDocs.Proofs.Removal.Fields
import LinkedDocs.Proofs.Removal.Matching
import LinkedDocs.Proofs.Removal.Reordering
import LinkedDocs.Proofs.Removal.Ordering
import LinkedDocs.Proofs.Store.Runs
import LinkedDocs.Proofs.Selector.Rendering
import LinkedDocs.Proofs.Insertion.Sequence
import LinkedDocs.Proofs.Collection.KeyChecks
import LinkedDocs.Proofs.Insertion.Recording
import LinkedDocs.Proofs.Insertion.Undoing
import LinkedDocs.Proofs.Removal.Counting
import LinkedDocs.Proofs.Collection.Normalizing
import LinkedDocs.Proofs.Collection.Plain
import LinkedDocs.Proofs.Collection.Extending
import LinkedDocs.Proofs.Removal.Taking
import LinkedDocs.Proofs.Collection.Distinct
import LinkedDocs.Proofs.Graph.Mirroring
import LinkedDocs.Proofs.Removal.Failing
import LinkedDocs.Proofs.Selector.Viability
import LinkedDocs.Proofs.Json.Identical
import LinkedDocs.Proofs.Update.Changing
import LinkedDocs.Proofs.Store.Failing
import LinkedDocs.Proofs.Store.Permanence
import LinkedDocs.Proofs.Filter.Operators
import LinkedDocs.Proofs.Filter.Algebra
import LinkedDocs.Proofs.Filter.Exchanging
import LinkedDocs.Proofs.Number.Rounding
import LinkedDocs.Proofs.Filter.Integers
import LinkedDocs.Proofs.Update.Repeating
import LinkedDocs.Proofs.Json.Text
import LinkedDocs.Proofs.Schema.Writing
import LinkedDocs.Proofs.Insertion.Unnesting
import LinkedDocs.Proofs.Json.Walking
import LinkedDocs.Proofs.Collection.Visiting
import LinkedDocs.Proofs.Projection.Covering
import LinkedDocs.Proofs.Removal.Batching
import LinkedDocs.Proofs.Removal.Refinding
import LinkedDocs.Proofs.Selection.Spelling
