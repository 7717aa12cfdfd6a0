import RelationQuery.Aggregate
import RelationQuery.Operator
import RelationQuery.Sql.Clause
import RelationQuery.Sql.Literal
import RelationQuery.Sql.Source

/-! Conditions, and the subqueries over related rows they are made of. -/
namespace RelationQuery

structure KeyMatch where
  inner : String
  outer : String
  deriving DecidableEq

def KeyMatch.sql (dialect : Dialect) (key : KeyMatch) : String :=
  dialect.quote key.inner ++ " = " ++ dialect.quote key.outer

/-- The rows of `source` that belong to the row around: `label` is the name given to the related
table, `keys` tie it to the outside, and `refinement` narrows further. -/
structure Subquery (γ : Type) where
  label : String
  source : Source
  keys : List KeyMatch
  refinement : List (Entry γ)

inductive Condition where
  | compare (column : String) (operator : Operator) (value : Value)
  | member (column : String) (negated : Bool) (values : List Value)
  | existence (negated : Bool) (rows : Subquery Condition)
  | count (rows : Subquery Condition) (comparison : Comparison) (bound : Nat)
  | aggregate (measure : Aggregate Expression) (rows : Subquery Condition)
      (comparison : Comparison) (value : Value)

def Condition.comparing (column : String) (operator : Operator) (value : Value) : Condition :=
  match operator, value with
  | .compare .equal, .null => .compare column .is .null
  | .compare .notEqual, .null => .compare column .isNot .null
  | operator, value => .compare column operator value

def Subquery.selecting (what body : String) : String :=
  "(SELECT " ++ what ++ " FROM " ++ body ++ ")"

/-- Membership in no value is a constant. -/
def Condition.memberSql (dialect : Dialect) (column : String) (negated : Bool) :
    List Value → String
  | [] => if negated then "1 = 1" else "1 = 0"
  | values =>
    dialect.quote column ++ (if negated then " NOT IN (" else " IN (") ++
      String.intercalate ", " (values.map (Value.sql dialect)) ++ ")"

mutual

def Condition.sql (dialect : Dialect) : Condition → String
  | .compare column operator value =>
    dialect.quote column ++ " " ++ operator.sql ++ " " ++ value.sql dialect
  | .member column negated values => Condition.memberSql dialect column negated values
  | .existence negated rows =>
    (if negated then "NOT EXISTS " else "EXISTS ") ++ Subquery.selecting "1" (rows.sql dialect)
  | .count rows comparison bound =>
    Subquery.selecting "COUNT(*)" (rows.sql dialect) ++ " " ++ comparison.sql ++ " " ++
      toString bound
  | .aggregate measure rows comparison value =>
    "COALESCE(" ++ Subquery.selecting (measure.sql dialect rows.label) (rows.sql dialect) ++
      ", 0) " ++ comparison.sql ++ " " ++ value.sql dialect

/-- The source and condition of a subquery. The refinement stands in parentheses of its own, so
that it can only narrow. -/
def Subquery.sql (dialect : Dialect) : Subquery Condition → String
  | ⟨_, source, keys, refinement⟩ =>
    source.sql dialect ++ " WHERE " ++
      String.intercalate " AND " (keys.map (KeyMatch.sql dialect)) ++
      if refinement.isEmpty then "" else
        " AND (" ++ Clause.text true (Condition.clauseSql dialect refinement) ++ ")"

def Condition.clauseSql (dialect : Dialect) : List (Entry Condition) → Clause String
  | [] => []
  | entry :: rest => Condition.entrySql dialect entry :: Condition.clauseSql dialect rest

def Condition.entrySql (dialect : Dialect) : Entry Condition → Entry String
  | .item connective content => .item connective (content.sql dialect)
  | .opening connective negated => .opening connective negated
  | .closing => .closing

end

theorem Condition.clauseSql_eq_map (dialect : Dialect) (clause : Clause Condition) :
    Condition.clauseSql dialect clause = clause.map (Entry.map (Condition.sql dialect)) := by
  induction clause with
  | nil => simp [Condition.clauseSql]
  | cons entry rest ih =>
    cases entry <;> simp [Condition.clauseSql, Condition.entrySql, ih, Entry.map]

def Subquery.aggregateSql (dialect : Dialect) (measure : Aggregate Expression)
    (rows : Subquery Condition) : String :=
  Subquery.selecting (measure.sql dialect rows.label) (rows.sql dialect)

end RelationQuery
