import RelationQuery.Relation
import RelationQuery.Statement

/-! Calls on a query as data, so that what narrows related rows can be run for each statement that
needs it. -/
namespace RelationQuery

/-- One call on a query under construction. A refinement is a list of them, run on the query for
the related rows up to the first that fails; `attempt` lets the rest go on after a failure. -/
inductive Step where
  | fromTable (table : String)
  | select (column : String)
  | join (kind : Join.Kind) (table left right : String)
  | filter (connective : Connective) (key : String) (value : Value)
  | filterIn (connective : Connective) (negated : Bool) (column : String) (values : List Value)
  | openGroup (connective : Connective) (negated : Bool)
  | closeGroup
  | orderBy (column : String) (direction : Direction)
  | limit (count : Nat)
  | offset (count : Nat)
  | countAll
  | load (cardinality : Cardinality) (edge : Edge (List Step))
  | aggregate (kind : Aggregate.Kind) (edge : Edge (List Step)) (column : String)
  | filterCount (connective : Connective) (edge : Edge (List Step)) (operator : String)
      (count : Int)
  | filterExists (connective : Connective) (negated : Bool) (edge : Edge (List Step))
  | filterExistsNow (connective : Connective) (edge : Edge (List Step))
  | filterAggregate (connective : Connective) (key : String) (value : Value)
  | orderByAggregate (label : String) (direction : Direction)
  | fail (error : Error)
  | attempt (step : Step)

abbrev Refinement := List Step

end RelationQuery
