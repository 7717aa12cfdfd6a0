import RelationQuery.Aggregate
import RelationQuery.Config
import RelationQuery.Declaration
import RelationQuery.Dialect
import RelationQuery.Error
import RelationQuery.Expression
import RelationQuery.Expression.Lexeme
import RelationQuery.Fields
import RelationQuery.Identifier
import RelationQuery.Key
import RelationQuery.Load
import RelationQuery.Name
import RelationQuery.Number
import RelationQuery.Number.Binary64
import RelationQuery.Number.Shortest
import RelationQuery.Operator
import RelationQuery.Query
import RelationQuery.Query.Assembly
import RelationQuery.Query.Run
import RelationQuery.Query.Subquery
import RelationQuery.Relation
import RelationQuery.Result
import RelationQuery.Result.Decode
import RelationQuery.Result.Record
import RelationQuery.Result.Shape
import RelationQuery.Session
import RelationQuery.Sql.Clause
import RelationQuery.Sql.Condition
import RelationQuery.Sql.Literal
import RelationQuery.Sql.Source
import RelationQuery.Statement
import RelationQuery.Step
import RelationQuery.Text.Blank
import RelationQuery.Text.Caseless
import RelationQuery.Text.Extending
import RelationQuery.Text.Printable
import RelationQuery.Text.Quoted
import RelationQuery.Text.Ranges
import RelationQuery.Toml
import RelationQuery.Toml.Lexeme
import RelationQuery.Toml.Table
import RelationQuery.Value
import RelationQuery.Proofs.Join
import RelationQuery.Proofs.Origin
import RelationQuery.Proofs.Fault
import RelationQuery.Proofs.Condition
import RelationQuery.Proofs.Grounded
import RelationQuery.Proofs.KeyValues
import RelationQuery.Proofs.Lexical
import RelationQuery.Proofs.Outline
import RelationQuery.Proofs.Fragment
import RelationQuery.Proofs.Deferral
import RelationQuery.Proofs.Prompt
import RelationQuery.Proofs.Contribution
import RelationQuery.Proofs.Finalization
import RelationQuery.Proofs.Interleaving
import RelationQuery.Proofs.Moves
import RelationQuery.Proofs.Naming
import RelationQuery.Proofs.Capture
import RelationQuery.Proofs.Reshaping
import RelationQuery.Proofs.WellFormed
import RelationQuery.Proofs.Completion
import RelationQuery.Proofs.Narrowing
import RelationQuery.Proofs.Projection
import RelationQuery.Proofs.Stripping
import RelationQuery.Proofs.Anchoring
import RelationQuery.Proofs.Journal
import RelationQuery.Proofs.Composite
import RelationQuery.Proofs.Atomicity
import RelationQuery.Proofs.Failure
import RelationQuery.Proofs.Levels
import RelationQuery.Proofs.Refusal
import RelationQuery.Proofs.Depth
import RelationQuery.Proofs.Limit
import RelationQuery.Proofs.Qualification
import RelationQuery.Proofs.Meaning
import RelationQuery.Proofs.Selection
import RelationQuery.Proofs.Stranding
import RelationQuery.Proofs.Sending
import RelationQuery.Proofs.Carried
import RelationQuery.Proofs.Paths
import RelationQuery.Proofs.Admission
import RelationQuery.Proofs.NumericKeys
import RelationQuery.Proofs.Spelling
import RelationQuery.Proofs.Unquoting
import RelationQuery.Proofs.Sequence
import RelationQuery.Proofs.Offsets
import RelationQuery.Proofs.Spans
import RelationQuery.Proofs.Partition
