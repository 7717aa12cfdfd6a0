import RelationQuery.Query.Run

/-! Subqueries over related rows, nested up to the depth that the configuration allows. -/
namespace RelationQuery

def Link.keyMatches (link : Link Refinement) (label anchor : String) : List KeyMatch :=
  List.zipWith (fun foreign own =>
    { inner := Name.qualify label (Name.last foreign), outer := Name.qualify anchor own })
    link.foreign link.own

/-- Makes subqueries that nest at most `levels` deep. The related table is named for its depth,
so that a table related to itself stays apart from itself; the refinement may narrow the rows but
not shape a result. -/
def compileSubqueryWithin (levels : Nat) : SubqueryCompiler := fun scope link base =>
  match levels with
  | 0 => .error (.tooDeep scope.config.maxDepth)
  | levels + 1 => do
    let depth := scope.depth + 1
    let label := base ++ "_s" ++ toString depth
    let rows := Query.below scope.config { name := link.target, label := some label } depth true
    let rows ← rows.refineUsing (compileSubqueryWithin levels) (link.refinement.getD [])
    let assembly ← rows.assemble (compileSubqueryWithin levels)
    if let some clause := assembly.statement.shapingClause? then
      throw (.compile (.shapingClause clause link.name))
    return {
      label
      source := ← assembly.statement.source
      keys := link.keyMatches label scope.anchor
      refinement := ← assembly.statement.filter }

def compileSubquery : SubqueryCompiler := fun scope =>
  compileSubqueryWithin (scope.config.maxDepth - scope.depth) scope

namespace Query

def apply (step : Step) (q : Query) : Query × Option Error := q.applyUsing compileSubquery step

/-- What calls make of a fresh query; a call that fails does not keep the rest from coming. -/
def built (config : Config) (steps : List Step) : Query :=
  steps.foldl (fun q step => (q.apply step).1) (empty config)

def refine (steps : Refinement) (q : Query) : Except Error Query :=
  q.refineUsing compileSubquery steps

def compile (q : Query) : Except Error Assembly := q.assemble compileSubquery

def sql (q : Query) : Except Error String := do
  (← q.compile).statement.sql

end Query

end RelationQuery
