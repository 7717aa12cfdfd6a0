import RelationQuery.Expression

/-! Aggregates of related rows, and what they range over. -/
namespace RelationQuery

namespace Aggregate

/-- A calculation names its own functions; every other kind is one function of its operand. -/
inductive Kind where
  | count
  | sum
  | avg
  | min
  | max
  | calc
  deriving DecidableEq

namespace Kind

def name : Kind → String
  | .count => "count"
  | .sum => "sum"
  | .avg => "avg"
  | .min => "min"
  | .max => "max"
  | .calc => "calc"

def function? : Kind → Option String
  | .count => some "COUNT"
  | .sum => some "SUM"
  | .avg => some "AVG"
  | .min => some "MIN"
  | .max => some "MAX"
  | .calc => none

/-- The mode that the operand of a new aggregate is read in. -/
def mode : Kind → Expression.Mode
  | .calc => .calculation
  | _ => .column

/-- The mode that an operand kept as a text is read in when it is compiled. -/
def compileMode : Kind → Expression.Mode
  | .calc => .calculation
  | _ => .column

end Kind

/-- What an aggregate ranges over. An expression is a text in a declaration, and read in a
statement. -/
inductive Operand (ε : Type) where
  | star
  | column (name : String)
  | expression (value : ε)
  deriving DecidableEq

def Operand.sql (dialect : Dialect) (owner : String) : Operand Expression → String
  | .star => "*"
  | .column name => dialect.quote (Name.qualify owner name)
  | .expression value => value.sql dialect owner

end Aggregate

structure Aggregate (ε : Type) where
  kind : Aggregate.Kind
  operand : Aggregate.Operand ε
  deriving DecidableEq

def Aggregate.sql (dialect : Dialect) (owner : String) (aggregate : Aggregate Expression) :
    String :=
  let operand := aggregate.operand.sql dialect owner
  match aggregate.kind.function? with
  | some function => function ++ "(" ++ operand ++ ")"
  | none => operand

end RelationQuery
