import RelationQuery.Query

/-! Declarations become conditions and columns of the statement. How a subquery one level further
down is made is a parameter here: `Query/Subquery` ties the knot. -/
namespace RelationQuery

/-- What a subquery sees of the query around it; bare columns belong to `anchor`. -/
structure Scope where
  config : Config
  depth : Nat
  anchor : String

/-- Makes the subquery over the related rows of a link. The text is what its label starts with. -/
abbrev SubqueryCompiler := Scope → Link Refinement → String → Except Error (Subquery Condition)

structure Assembly where
  statement : Statement
  relations : List Relation

def RelatedExistence.compile (subquery : SubqueryCompiler) (scope : Scope)
    (existence : RelatedExistence) : Except Error Condition := do
  return .existence existence.negated (← subquery scope existence.link existence.link.name)

def RelatedCount.compile (subquery : SubqueryCompiler) (scope : Scope)
    (count : RelatedCount) : Except Error Condition := do
  return .count (← subquery scope count.link count.link.name) count.comparison count.bound

def Aggregate.Operand.compile (kind : Kind) : Operand String → Except Error (Operand Expression)
  | .star => .ok .star
  | .column name => .ok (.column name)
  | .expression source =>
    ((Expression.parse kind.compileMode source).map .expression).mapError (.expression source)

def Aggregate.compile (measure : Aggregate String) : Except Error (Aggregate Expression) := do
  return { kind := measure.kind, operand := ← measure.operand.compile measure.kind }

/-- An aggregate with the rows it ranges over, which are selected first. -/
def RelatedAggregate.selection (subquery : SubqueryCompiler) (scope : Scope)
    (aggregate : RelatedAggregate) :
    Except Error (Aggregate Expression × Subquery Condition) := do
  let rows ← subquery scope aggregate.link aggregate.label
  return (← aggregate.measure.compile, rows)

def RelatedAggregate.compile (subquery : SubqueryCompiler) (scope : Scope)
    (aggregate : RelatedAggregate) : Except Error Output := do
  let (measure, rows) ← aggregate.selection subquery scope
  return .aggregate measure rows aggregate.label

def AggregateFilter.compile (subquery : SubqueryCompiler) (scope : Scope)
    (filter : AggregateFilter) : Except Error Condition := do
  let (measure, rows) ← filter.aggregate.selection subquery scope
  return .aggregate measure rows filter.comparison filter.value

namespace Query

def scope (q : Query) : Except Error Scope := do
  return { config := q.config, depth := q.depth, anchor := ← q.statement.knownAs }

/-- The columns that local keys are read back from, each name once. When the select list is the
whole table, bare keys are in it already. -/
def keyOutputs (q : Query) (anchor : String) (relations : List Relation) : List Output :=
  let keys := relations.flatMap fun relation => relation.link.own
  let hidden := keys.filter fun key => q.statement.hasSelectList || Name.isDotted key
  let named := hidden.map fun key => (q.config.hiddenKey key, key)
  (named.eraseDupsBy fun first second => first.1 == second.1).map fun (name, key) =>
    .column (Name.qualify anchor key) (some name)

def fillDeferred (subquery : SubqueryCompiler) (scope : Scope) (deferrals : List Deferred)
    (statement : Statement) : Except Error Statement :=
  deferrals.foldlM (fun statement deferred => do
    statement.fill deferred.slot (← deferred.existence.compile subquery scope)) statement

def entries (connectives : List Connective) (conditions : List Condition) :
    Clause Place :=
  List.zipWith (fun connective condition => .item connective (.ready condition)) connectives
    conditions

/-- Compiles everything declared: conditions on counts, aggregate columns, deferred conditions,
existence conditions and conditions on aggregates, in this order. The aggregates of a refinement
have no select list to go to. -/
def assemble (subquery : SubqueryCompiler) (q : Query) : Except Error Assembly := do
  if 0 < q.statement.openGroups then throw (.group .leftOpen)
  let scope ← q.scope
  let counts := q.declarations.filterMap Declaration.count?
  let countConditions ← counts.mapM (RelatedCount.compile subquery scope)
  let aggregates := if q.correlated then [] else q.declarations.filterMap Declaration.aggregate?
  let aggregateOutputs ← aggregates.mapM (RelatedAggregate.compile subquery scope)
  let statement ← fillDeferred subquery scope q.deferrals q.statement
  let existences := q.declarations.filterMap Declaration.existence?
  let existenceConditions ← existences.mapM (RelatedExistence.compile subquery scope)
  let filters := q.declarations.filterMap Declaration.filter?
  let filterConditions ← filters.mapM (AggregateFilter.compile subquery scope)
  let relations := q.declarations.filterMap Declaration.relation?
  if let relation :: _ := relations then
    if q.correlated then throw (.compile (.eagerInSubquery relation.label))
  return {
    statement := { statement with
      conditions := statement.conditions ++
        entries (counts.map (·.connective)) countConditions ++
        entries (existences.map (·.connective)) existenceConditions ++
        entries (filters.map (·.connective)) filterConditions
      extras := statement.extras ++ aggregateOutputs ++
        q.keyOutputs scope.anchor relations }
    relations }

end Query

end RelationQuery
