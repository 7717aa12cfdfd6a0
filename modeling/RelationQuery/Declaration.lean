import RelationQuery.Step

/-! What a query declares about related rows, kept until the query is compiled. -/
namespace RelationQuery

structure Relation where
  link : Link Refinement
  cardinality : Cardinality
  label : String

structure RelatedAggregate where
  link : Link Refinement
  measure : Aggregate String
  label : String

structure RelatedCount where
  link : Link Refinement
  comparison : Comparison
  bound : Nat
  connective : Connective

structure RelatedExistence where
  link : Link Refinement
  negated : Bool
  connective : Connective

/-- A condition on an aggregate, of which it keeps a copy. -/
structure AggregateFilter where
  aggregate : RelatedAggregate
  comparison : Comparison
  value : Value
  connective : Connective

inductive Declaration where
  | relation (held : Relation)
  | aggregate (held : RelatedAggregate)
  | count (held : RelatedCount)
  | existence (held : RelatedExistence)
  | filter (held : AggregateFilter)

namespace Declaration

def relation? : Declaration → Option Relation
  | .relation held => some held
  | _ => none

def aggregate? : Declaration → Option RelatedAggregate
  | .aggregate held => some held
  | _ => none

def count? : Declaration → Option RelatedCount
  | .count held => some held
  | _ => none

def existence? : Declaration → Option RelatedExistence
  | .existence held => some held
  | _ => none

def filter? : Declaration → Option AggregateFilter
  | .filter held => some held
  | _ => none

end Declaration

end RelationQuery
