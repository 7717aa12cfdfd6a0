import RelationQuery.Query.Assembly

/-! What each step does to a query. A step that fails leaves the query as it was, but for the end
of a group, which may lose conditions that waited for it. -/
namespace RelationQuery.Query

variable (subquery : SubqueryCompiler)

def filterExistsNow (connective : Connective) (edge : Edge Refinement) (q : Query) :
    Except Error Query := do
  let existence : RelatedExistence := { link := ← edge.link, negated := false, connective }
  let condition ← existence.compile subquery (← q.scope)
  return { q with statement := q.statement.addCondition connective condition }

/-- Compiles deferred conditions one after the other. At a failure the ones before it stay in
their places, and it and the ones after it are gone. -/
def settle : List Deferred → Query → Query × Option Error
  | [], q => (q, none)
  | deferred :: rest, q =>
    let filled := do
      q.statement.fill deferred.slot (← deferred.existence.compile subquery (← q.scope))
    match filled with
    | .ok statement => settle rest { q with statement }
    | .error error => (q, some error)

/-- Closes the innermost group, once the conditions that wait for it have been compiled. -/
def closeGroup (q : Query) : Query × Option Error :=
  let depth := q.statement.openGroups
  if depth = 0 then (q, some (.group .noneOpen))
  else
    let (ready, rest) := q.deferrals.partition (depth ≤ ·.depth)
    match settle subquery ready { q with deferrals := rest } with
    | (q, some error) => (q, some error)
    | (q, none) =>
      match q.statement.closeGroup with
      | .ok statement => ({ q with statement }, none)
      | .error error => (q, some error)

def orUnchanged (q : Query) : Except Error Query → Query × Option Error
  | .ok after => (after, none)
  | .error error => (q, some error)

def applyUsing : Step → Query → Query × Option Error
  | .fromTable table, q => q.orUnchanged (q.fromTable table)
  | .select column, q => q.orUnchanged (q.select column)
  | .join kind table left right, q => q.orUnchanged (q.join kind table left right)
  | .filter connective key value, q => q.orUnchanged (q.filter connective key value)
  | .filterIn connective negated column values, q =>
    q.orUnchanged (q.filterIn connective negated column values)
  | .openGroup connective negated, q => (q.openGroup connective negated, none)
  | .closeGroup, q => q.closeGroup subquery
  | .orderBy column direction, q => q.orUnchanged (q.orderBy column direction)
  | .limit count, q => (q.limit count, none)
  | .offset count, q => (q.offset count, none)
  | .countAll, q => (q.countAll, none)
  | .load cardinality edge, q => q.orUnchanged (q.load cardinality edge)
  | .aggregate kind edge column, q => q.orUnchanged (q.aggregate kind edge column)
  | .filterCount connective edge operator count, q =>
    q.orUnchanged (q.filterCount connective edge operator count)
  | .filterExists connective negated edge, q =>
    q.orUnchanged (q.filterExists connective negated edge)
  | .filterExistsNow connective edge, q =>
    q.orUnchanged (q.filterExistsNow subquery connective edge)
  | .filterAggregate connective key value, q =>
    q.orUnchanged (q.filterAggregate connective key value)
  | .orderByAggregate label direction, q => q.orUnchanged (q.orderByAggregate label direction)
  | .fail error, q => (q, some error)
  | .attempt step, q => ((applyUsing step q).1, none)

def refineUsing : Refinement → Query → Except Error Query
  | [], q => .ok q
  | step :: rest, q =>
    match applyUsing subquery step q with
    | (q, none) => refineUsing rest q
    | (_, some error) => .error error

end RelationQuery.Query
