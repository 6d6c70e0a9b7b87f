import RecordFlow.Binary64.Decimal
import RecordFlow.Text.Blank
import RecordFlow.Text.Letter
import RecordFlow.Text.Visible
import RecordFlow.Text.Case
import RecordFlow.Timestamp.Text
import RecordFlow.Json.Reader
import RecordFlow.Text.Number
import RecordFlow.Value.Order
import RecordFlow.Value.Hash
import RecordFlow.Value.Text
import RecordFlow.Value.Stored
import RecordFlow.Value.Coercion
import RecordFlow.Query.Condition
import RecordFlow.Query.Function
import RecordFlow.Query.ExpressionReader
import RecordFlow.Spill.Config
import RecordFlow.Sampling
import RecordFlow.Relation.Grouping
import RecordFlow.Relation.Profile
import RecordFlow.Relation.Text
import RecordFlow.Stream.Traversal
import RecordFlow.Workspace.Storage
import RecordFlow.Workspace.Tables
import RecordFlow.Proofs.Json.NumeralText
import RecordFlow.Proofs.Json.RoundTrip
import RecordFlow.Proofs.Timestamp.RoundTrip
import RecordFlow.Proofs.Value.StoredRoundTrip
import RecordFlow.Proofs.Spill.File
import RecordFlow.Proofs.Spill.Area
import RecordFlow.Proofs.Spill.RoundTrip
import RecordFlow.Proofs.Spill.Register
import RecordFlow.Proofs.Stream.Held
import RecordFlow.Proofs.Workspace.Holders
import RecordFlow.Proofs.Workspace.Requests
import RecordFlow.Proofs.Spill.Reader
import RecordFlow.Proofs.Workspace.Readers
import RecordFlow.Proofs.Workspace.LifeCycle
import RecordFlow.Proofs.Stream.Persist
import RecordFlow.Proofs.Stream.Item
import RecordFlow.Proofs.Workspace.Attempts
import RecordFlow.Proofs.Query.Classified
import RecordFlow.Proofs.Query.Grammar
import RecordFlow.Proofs.Query.Soundness
import RecordFlow.Proofs.Query.Completeness
import RecordFlow.Proofs.Query.Parsing
import RecordFlow.Proofs.Query.FilterTokens
import RecordFlow.Proofs.Query.FilterMeaning
import RecordFlow.Proofs.Binary64.Rounding
import RecordFlow.Proofs.Relation.Selection
import RecordFlow.Proofs.Value.ByteOrder
import RecordFlow.Proofs.Timestamp.Order
import RecordFlow.Proofs.Value.KeyOrder
import RecordFlow.Proofs.Value.KeyEquality
import RecordFlow.Proofs.Relation.Construction
import RecordFlow.Proofs.Relation.WellFormed
import RecordFlow.Proofs.Relation.Reingestion
import RecordFlow.Proofs.Json.Depth
import RecordFlow.Proofs.Value.Nesting
import RecordFlow.Proofs.Query.Fragments
import RecordFlow.Proofs.Spill.Nesting
import RecordFlow.Proofs.Query.QuotedLiteral
import RecordFlow.Proofs.Binary64.Nearest
import RecordFlow.Proofs.Binary64.Rational
import RecordFlow.Proofs.Binary64.Shortest
import RecordFlow.Proofs.Json.FloatText
import RecordFlow.Proofs.Binary64.Exact
import RecordFlow.Proofs.Binary64.DecimalRounding
import RecordFlow.Proofs.Json.FloatReading
import RecordFlow.Proofs.Relation.Exchange
import RecordFlow.Proofs.Spill.Numbers
import RecordFlow.Proofs.Distinct
import RecordFlow.Proofs.Relation.Projection
import RecordFlow.Proofs.Relation.Algebra
import RecordFlow.Proofs.Relation.ColumnChoice
import RecordFlow.Proofs.Stream.Positions
import RecordFlow.Proofs.Relation.LineRoundTrip
import RecordFlow.Proofs.Value.Feed
import RecordFlow.Proofs.Relation.FirstOccurrences
import RecordFlow.Proofs.Relation.Digest
import RecordFlow.Proofs.Relation.DigestChanges
import RecordFlow.Proofs.Query.Height
import RecordFlow.Proofs.Value.KeyMeaning
import RecordFlow.Proofs.Relation.Grouping
import RecordFlow.Proofs.Stream.SortedGroups
import RecordFlow.Proofs.Stream.Pipeline
import RecordFlow.Proofs.Query.Patterns
import RecordFlow.Proofs.Query.PatternScan
import RecordFlow.Proofs.Query.Identifiers
import RecordFlow.Proofs.Query.Lexemes
import RecordFlow.Proofs.Query.LiteralList
import RecordFlow.Proofs.Query.Membership
import RecordFlow.Proofs.Relation.Inference
import RecordFlow.Proofs.Query.Variables
import RecordFlow.Proofs.Spill.PositionalScan
import RecordFlow.Proofs.Query.Enclosure
import RecordFlow.Proofs.Value.PlainRoundTrip
import RecordFlow.Proofs.Relation.PlainExport
import RecordFlow.Proofs.Value.EqualityLaws
import RecordFlow.Proofs.Value.KeyAgreement
import RecordFlow.Proofs.Value.NumberOrder
import RecordFlow.Proofs.Aggregate.Sum
import RecordFlow.Proofs.Relation.ProfileAgreement
import RecordFlow.Proofs.Query.OperandOrder
import RecordFlow.Proofs.Stream.Sampling
import RecordFlow.Proofs.Timestamp.Iso
import RecordFlow.Proofs.Timestamp.Offset
import RecordFlow.Proofs.Text.WrittenNumber
import RecordFlow.Proofs.Text.NumberReading
import RecordFlow.Proofs.Value.FeedDecoding
import RecordFlow.Proofs.Value.NumberText
import RecordFlow.Proofs.Query.NumberWords
import RecordFlow.Proofs.Query.IntegerPart
