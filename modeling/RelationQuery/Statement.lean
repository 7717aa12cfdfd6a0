import RelationQuery.Error
import RelationQuery.Sql.Condition

/-! One SELECT statement under construction. Names are taken as they come: they are checked where
a query is built. -/
namespace RelationQuery

inductive Direction where
  | asc
  | desc
  deriving DecidableEq

def Direction.sql : Direction → String
  | .asc => "ASC"
  | .desc => "DESC"

inductive Output where
  | column (name : String) (label : Option String)
  | aggregate (measure : Aggregate Expression) (rows : Subquery Condition) (label : String)

def Output.sql (dialect : Dialect) : Output → String
  | .column name none => dialect.quote name
  | .column name (some label) => dialect.quote name ++ " AS " ++ dialect.quote label
  | .aggregate measure rows label =>
    rows.aggregateSql dialect measure ++ " AS " ++ dialect.quote label

/-- What stands at a place of a WHERE clause: a condition, or the number under which one is still
to come. -/
inductive Place where
  | ready (condition : Condition)
  | reserved (slot : Nat)

namespace Clause

def fill? (slot : Nat) (condition : Condition) : Clause Place → Option (Clause Place)
  | [] => none
  | .item connective (.reserved other) :: rest =>
    if other = slot then some (.item connective (.ready condition) :: rest)
    else (fill? slot condition rest).map (.item connective (.reserved other) :: ·)
  | entry :: rest => (fill? slot condition rest).map (entry :: ·)

def settled? : Clause Place → Option (Clause Condition)
  | [] => some []
  | .item _ (.reserved _) :: _ => none
  | .item connective (.ready condition) :: rest =>
    (settled? rest).map (.item connective condition :: ·)
  | .opening connective negated :: rest => (settled? rest).map (.opening connective negated :: ·)
  | .closing :: rest => (settled? rest).map (.closing :: ·)

def sql? (dialect : Dialect) (clause : Clause Condition) : Option String :=
  if clause.isEmpty then none else some (text true (Condition.clauseSql dialect clause))

end Clause

/-- `outputs` is the caller's select list, all columns of the table when empty; `extras` come
after it in either case. -/
structure Statement where
  dialect : Dialect
  table : Option Table := none
  outputs : List Output := []
  extras : List Output := []
  joins : List Join := []
  conditions : Clause Place := []
  openGroups : Nat := 0
  slots : Nat := 0
  ordering : List (String × Direction) := []
  limit : Option Nat := none
  offset : Option Nat := none

namespace Statement

def fromTable (table : Table) (s : Statement) : Statement := { s with table := some table }

def select (column : String) (label : Option String) (s : Statement) : Statement :=
  { s with outputs := s.outputs ++ [.column column label] }

def addJoin (join : Join) (s : Statement) : Statement := { s with joins := s.joins ++ [join] }

def addCondition (connective : Connective) (condition : Condition) (s : Statement) : Statement :=
  { s with conditions := s.conditions.add connective (.ready condition) }

def openGroup (connective : Connective) (negated : Bool) (s : Statement) : Statement :=
  { s with
    conditions := s.conditions.openGroup connective negated
    openGroups := s.openGroups + 1 }

def closeGroup (s : Statement) : Except Error Statement :=
  if s.openGroups = 0 then .error (.group .noneOpen)
  else .ok { s with conditions := s.conditions.closeGroup, openGroups := s.openGroups - 1 }

def reserve (connective : Connective) (s : Statement) : Nat × Statement :=
  (s.slots,
    { s with
      conditions := s.conditions.add connective (.reserved s.slots)
      slots := s.slots + 1 })

def fill (slot : Nat) (condition : Condition) (s : Statement) : Except Error Statement :=
  match s.conditions.fill? slot condition with
  | some conditions => .ok { s with conditions }
  | none => .error (.compile (.unknownSlot slot))

def follow (lead : Clause Place) (s : Statement) : Statement :=
  { s with conditions := s.conditions.behind lead }

def orderBy (column : String) (direction : Direction) (s : Statement) : Statement :=
  { s with ordering := s.ordering ++ [(column, direction)] }

def hasSelectList (s : Statement) : Bool := !s.outputs.isEmpty

/-- The first clause set that shapes nothing but the statement's own result. -/
def shapingClause? (s : Statement) : Option Error.ShapingClause :=
  if !s.outputs.isEmpty then some .select
  else if !s.ordering.isEmpty then some .orderBy
  else if s.limit.isSome then some .limit
  else if s.offset.isSome then some .offset
  else none

def requireTable (s : Statement) : Except Error Table :=
  match s.table with
  | some table => .ok table
  | none => .error (.compile .noTable)

def knownAs (s : Statement) : Except Error String := s.requireTable.map Table.knownAs

def source (s : Statement) : Except Error Source := do
  return { table := ← s.requireTable, joins := s.joins }

def filter (s : Statement) : Except Error (Clause Condition) :=
  if 0 < s.openGroups then .error (.group .leftOpen)
  else
    match s.conditions.settled? with
    | some clause => .ok clause
    | none => .error (.compile .unfilledSlot)

def sourceSql (s : Statement) : Except Error String := do
  return (← s.source).sql s.dialect

def filterSql (s : Statement) : Except Error (Option String) := do
  return (← s.filter).sql? s.dialect

def bodySql (s : Statement) : Except Error String := do
  let source ← s.sourceSql
  match ← s.filterSql with
  | some conditions => return source ++ " WHERE " ++ conditions
  | none => return source

def projectionSql (s : Statement) (table : Table) : String :=
  let chosen :=
    if s.outputs.isEmpty then s.dialect.quote table.knownAs ++ ".*"
    else String.intercalate ", " (s.outputs.map (Output.sql s.dialect))
  chosen ++ String.join (s.extras.map fun extra => ", " ++ extra.sql s.dialect)

def orderSql (s : Statement) : String :=
  if s.ordering.isEmpty then ""
  else
    " ORDER BY " ++ String.intercalate ", "
      (s.ordering.map fun (column, direction) => s.dialect.quote column ++ " " ++ direction.sql)

/-- Only PostgreSQL takes an offset without a limit. -/
def pagingSql (s : Statement) : String :=
  match s.limit, s.offset with
  | some limit, some offset => " LIMIT " ++ toString limit ++ " OFFSET " ++ toString offset
  | some limit, none => " LIMIT " ++ toString limit
  | none, some offset =>
    (if s.dialect = .postgresql then "" else " LIMIT -1") ++ " OFFSET " ++ toString offset
  | none, none => ""

def sql (s : Statement) : Except Error String := do
  let table ← s.requireTable
  return "SELECT " ++ s.projectionSql table ++ " FROM " ++ (← s.bodySql) ++ s.orderSql ++
    s.pagingSql

def countSql (column : String) (s : Statement) : Except Error String := do
  return "SELECT COUNT(*) AS " ++ s.dialect.quote column ++ " FROM " ++ (← s.bodySql)

end Statement

end RelationQuery
