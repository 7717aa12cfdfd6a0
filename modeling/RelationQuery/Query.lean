import RelationQuery.Declaration

/-! Queries under construction: plain clauses go into a statement, and what is said about related
rows is checked and kept for the compilation. -/
namespace RelationQuery

/-- An existence condition declared inside an open group: its place in the statement is reserved,
and it is compiled when the group at `depth` closes. -/
structure Deferred where
  slot : Nat
  depth : Nat
  existence : RelatedExistence

/-- `depth` counts the queries around this one; `correlated` marks the refinement of a subquery. -/
structure Query where
  config : Config
  statement : Statement
  declarations : List Declaration := []
  deferrals : List Deferred := []
  depth : Nat := 0
  correlated : Bool := false
  wantsTotal : Bool := false

namespace Query

def empty (config : Config) : Query := { config, statement := { dialect := config.dialect } }

def below (config : Config) (table : Table) (depth : Nat) (correlated : Bool) : Query :=
  { config, depth, correlated, statement := { dialect := config.dialect, table := some table } }

def pending (q : Query) : Nat := q.declarations.length + q.deferrals.length

def onStatement (q : Query) (f : Statement → Statement) : Query :=
  { q with statement := f q.statement }

def declare (q : Query) (declaration : Declaration) : Query :=
  { q with declarations := q.declarations ++ [declaration] }

def fromTable (table : String) (q : Query) : Except Error Query := do
  let (name, label) ← checkLabelled .table table
  return q.onStatement (·.fromTable { name, label })

def select (column : String) (q : Query) : Except Error Query := do
  let (name, label) ← checkLabelled .column column
  return q.onStatement (·.select name label)

def join (kind : Join.Kind) (table left right : String) (q : Query) : Except Error Query := do
  let (name, label) ← checkLabelled .table table
  checkName .column left
  checkName .column right
  return q.onStatement (·.addJoin { kind, table := { name, label }, left, right })

def splitKey (key : String) : Except Error (String × Operator) :=
  (Operator.splitKey key).mapError fun text => .parameter (.unsupportedOperator text)

def filter (connective : Connective) (key : String) (value : Value) (q : Query) :
    Except Error Query := do
  let (column, operator) ← splitKey key
  checkName .column column
  return q.onStatement (·.addCondition connective (.comparing column operator value))

def filterIn (connective : Connective) (negated : Bool) (column : String) (values : List Value)
    (q : Query) : Except Error Query := do
  checkName .column column
  return q.onStatement (·.addCondition connective (.member column negated values))

def openGroup (connective : Connective) (negated : Bool) (q : Query) : Query :=
  q.onStatement (·.openGroup connective negated)

def orderBy (column : String) (direction : Direction) (q : Query) : Except Error Query := do
  checkName .column column
  return q.onStatement (·.orderBy column direction)

def limit (count : Nat) (q : Query) : Query := q.onStatement ({ · with limit := some count })

def offset (count : Nat) (q : Query) : Query := q.onStatement ({ · with offset := some count })

def countAll (q : Query) : Query := { q with wantsTotal := true }

def load (cardinality : Cardinality) (edge : Edge Refinement) (q : Query) :
    Except Error Query := do
  let link ← edge.link
  return q.declare (.relation { link, cardinality, label := link.name })

/-- A column that is no plain name has to be an expression, and is kept as it is written; a star
stands for counts only. -/
def checkOperand (kind : Aggregate.Kind) (column : String) :
    Except Error (Aggregate.Operand String) :=
  let column := Text.trimmed column
  if column = "*" then
    if kind = .count then .ok .star else .error (.parameter (.starOperand kind))
  else
    match Identifier.check .column column.toList with
    | .ok () => .ok (.column column)
    | .error _ =>
      ((Expression.validate kind.mode column).map fun _ => .expression column).mapError
        (.expression column)

def aggregateNamed? (label : String) (q : Query) : Option RelatedAggregate :=
  (q.declarations.filterMap Declaration.aggregate?).find? (·.label = label)

def aggregate (kind : Aggregate.Kind) (edge : Edge Refinement) (column : String) (q : Query) :
    Except Error Query := do
  let link ← edge.link
  let operand ← checkOperand kind column
  let label := link.label.getD (link.target ++ "_" ++ kind.name)
  if (q.aggregateNamed? label).isSome then throw (.repeatedLabel label)
  return q.declare (.aggregate { link, measure := { kind, operand }, label })

def filterCount (connective : Connective) (edge : Edge Refinement) (operator : String)
    (count : Int) (q : Query) : Except Error Query := do
  let link ← edge.link
  let some comparison := Comparison.parse? operator.toList
    | throw (.parameter (.countOperator operator))
  if count < 0 then throw (.parameter (.negativeCount count))
  return q.declare (.count { link, comparison, bound := count.toNat, connective })

/-- Declares that related rows exist, or that none do. Inside a group the condition keeps its
place and waits for the group to close. -/
def filterExists (connective : Connective) (negated : Bool) (edge : Edge Refinement)
    (q : Query) : Except Error Query := do
  let link ← edge.link
  let existence := { link, negated, connective }
  let depth := q.statement.openGroups
  if depth = 0 then return q.declare (.existence existence)
  let (slot, statement) := q.statement.reserve connective
  return { q with statement, deferrals := q.deferrals ++ [{ slot, depth, existence }] }

def filterAggregate (connective : Connective) (key : String) (value : Value) (q : Query) :
    Except Error Query := do
  let (label, operator) ← splitKey key
  let .compare comparison := operator
    | throw (.parameter (.filterOperator operator))
  if value.isNull then throw (.parameter (.nullFilter label))
  let some aggregate := q.aggregateNamed? label | throw (.unknownLabel label)
  return q.declare (.filter { aggregate, comparison, value, connective })

def orderByAggregate (label : String) (direction : Direction) (q : Query) :
    Except Error Query :=
  if (q.aggregateNamed? label).isSome then .ok (q.onStatement (·.orderBy label direction))
  else .error (.unknownLabel label)

end Query

end RelationQuery
