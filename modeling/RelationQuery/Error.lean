import RelationQuery.Aggregate
import RelationQuery.Config
import RelationQuery.Operator

/-! What can go wrong with a query, as causes, and how each is told. -/
namespace RelationQuery

structure DriverError where
  message : String
  code : Option String := none
  deriving DecidableEq

def DriverError.describe (error : DriverError) : String :=
  match error.code with
  | some code => "[" ++ code ++ "] " ++ error.message
  | none => error.message

namespace Error

inductive Parameter where
  | unsupportedOperator (text : String)
  | missingKeys (relation : String)
  | starOperand (kind : Aggregate.Kind)
  | countOperator (text : String)
  | negativeCount (count : Int)
  | filterOperator (operator : Operator)
  | nullFilter (label : String)
  | stated (message : String)
  deriving DecidableEq

def Parameter.message : Parameter → String
  | .unsupportedOperator text => "unsupported operator \x60" ++ text ++ "\x60"
  | .missingKeys relation =>
    "relation \x60" ++ relation ++ "\x60 needs at least one foreign and one local key"
  | .starOperand kind => "\x60*\x60 is only valid for count aggregates, not " ++ kind.name
  | .countOperator text => "unsupported has-count operator \x60" ++ text ++ "\x60"
  | .negativeCount count => "has-count must not be negative, got " ++ toString count
  | .filterOperator operator =>
    "aggregate filters take a comparison operator, got \x60" ++ operator.sql ++ "\x60"
  | .nullFilter label => "aggregate filter on \x60" ++ label ++ "\x60 needs a non-null value"
  | .stated message => message

inductive Group where
  | noneOpen
  | leftOpen
  deriving DecidableEq

def Group.message : Group → String
  | .noneOpen => "group_end called without an open group"
  | .leftOpen => "query finalized while a WHERE group is still open"

inductive ShapingClause where
  | select
  | orderBy
  | limit
  | offset
  deriving DecidableEq

def ShapingClause.name : ShapingClause → String
  | .select => "select"
  | .orderBy => "order_by"
  | .limit => "limit"
  | .offset => "offset"

inductive Compile where
  | noTable
  | unfilledSlot
  | unknownSlot (slot : Nat)
  | eagerInSubquery (label : String)
  | shapingClause (clause : ShapingClause) (relation : String)
  | stated (message : String)
  deriving DecidableEq

def Compile.message : Compile → String
  | .noTable => "no base table set; call from() first"
  | .unfilledSlot => "deferred WHERE condition was never compiled"
  | .unknownSlot slot => "no reserved WHERE slot " ++ toString slot
  | .eagerInSubquery label =>
    "relation \x60" ++ label ++ "\x60 cannot be eager-loaded from inside a correlated subquery"
  | .shapingClause clause relation =>
    "\x60" ++ clause.name ++ "\x60 cannot be used in the refinement of \x60" ++ relation ++
      "\x60; correlated subqueries only take conditions and joins"
  | .stated message => message

inductive Mapping where
  | missingField (name : String)
  | unexpectedType (expected : String)
  | stated (message : String)
  deriving DecidableEq

def Mapping.message : Mapping → String
  | .missingField name => "missing field \x60" ++ name ++ "\x60"
  | .unexpectedType expected => "expected " ++ expected
  | .stated message => message

end Error

inductive Error where
  | identifier (name : String) (fault : Identifier.Fault)
  | expression (source : String) (fault : Expression.Fault)
  | unpairedKeys (relation : String) (foreign own : Nat)
  | unknownLabel (label : String)
  | repeatedLabel (label : String)
  | parameter (fault : Error.Parameter)
  | group (fault : Error.Group)
  | tooDeep (limit : Nat)
  | compile (fault : Error.Compile)
  | config (fault : Config.Fault)
  | mapping (fault : Error.Mapping)
  | refused (cause : DriverError) (sql : String)
  deriving DecidableEq

namespace Error

def message : Error → String
  | .identifier name fault => fault.describe name
  | .expression source fault =>
    "Invalid expression \x60" ++ source ++ "\x60: " ++ fault.message
  | .unpairedKeys relation foreign own =>
    "Key count mismatch for relation \x60" ++ relation ++ "\x60: " ++ toString foreign ++
      " foreign key(s) but " ++ toString own ++ " local key(s)"
  | .unknownLabel label =>
    "Unresolved aggregate alias \x60" ++ label ++
      "\x60: declare the aggregate before filtering on it"
  | .repeatedLabel label => "Duplicate aggregate alias \x60" ++ label ++ "\x60"
  | .parameter fault => "Invalid parameter: " ++ fault.message
  | .group fault => "Unbalanced WHERE group: " ++ fault.message
  | .tooDeep limit =>
    "Recursion limit of " ++ toString limit ++ " nested subqueries exceeded"
  | .compile fault => "Compile error: " ++ fault.message
  | .config fault => "Config error: " ++ fault.message
  | .mapping fault => "Mapping error: " ++ fault.message
  | .refused cause sql =>
    let code := match cause.code with
      | some code => " [" ++ code ++ "]"
      | none => ""
    "Execution error" ++ code ++ ": " ++ cause.message ++ "\n  SQL: " ++ sql

/-- What an error is laid to: what was declared, the compilation, or the run. -/
inductive Stage where
  | declaration
  | compilation
  | run
  deriving DecidableEq

def stage : Error → Stage
  | .identifier .. | .expression .. | .unpairedKeys .. | .unknownLabel _ | .repeatedLabel _
  | .parameter _ | .group _ | .config _ => .declaration
  | .compile _ | .tooDeep _ => .compilation
  | .mapping _ | .refused .. => .run

end Error

end RelationQuery
