import RelationQuery.Dialect

/-! The FROM clause: a table and what is joined to it. -/
namespace RelationQuery

structure Table where
  name : String
  label : Option String := none
  deriving DecidableEq

namespace Table

def knownAs (table : Table) : String := table.label.getD table.name

def sql (dialect : Dialect) (table : Table) : String :=
  match table.label with
  | some label => dialect.quote table.name ++ " AS " ++ dialect.quote label
  | none => dialect.quote table.name

end Table

namespace Join

inductive Kind where
  | inner
  | left
  | right
  deriving DecidableEq

def Kind.sql : Kind → String
  | .inner => "INNER JOIN"
  | .left => "LEFT JOIN"
  | .right => "RIGHT JOIN"

end Join

structure Join where
  kind : Join.Kind
  table : Table
  left : String
  right : String
  deriving DecidableEq

def Join.sql (dialect : Dialect) (join : Join) : String :=
  join.kind.sql ++ " " ++ join.table.sql dialect ++ " ON " ++ dialect.quote join.left ++ " = " ++
    dialect.quote join.right

structure Source where
  table : Table
  joins : List Join := []
  deriving DecidableEq

def Source.sql (dialect : Dialect) (source : Source) : String :=
  source.table.sql dialect ++ String.join (source.joins.map fun join => " " ++ join.sql dialect)

end RelationQuery
