import RelationQuery.Dialect
import RelationQuery.Identifier
import RelationQuery.Toml

/-! Settings that queries are compiled under, and their TOML form. -/
namespace RelationQuery

/-- How queries are compiled: `maxDepth` bounds how deep subqueries and relations nest,
`maxResultDepth` how deep results are searched for columns that start with
`correlationPrefix`. -/
structure Config where
  dialect : Dialect := .sqlite
  maxDepth : Nat := 16
  maxResultDepth : Nat := 20
  correlationPrefix : String := "__rq_"
  deriving DecidableEq

namespace Config

inductive Fault where
  | unreadable
  | maxDepth
  | maxResultDepth
  | correlationPrefix (name : String) (fault : Identifier.Fault)
  | stated (message : String)
  deriving DecidableEq

def Fault.message : Fault → String
  | .unreadable => "the document is no configuration"
  | .maxDepth => "max_depth must be at least 1"
  | .maxResultDepth => "max_result_depth must be at least 1"
  | .correlationPrefix name fault =>
    "correlation_prefix is not a valid identifier: " ++ fault.describe name
  | .stated message => message

def validate (config : Config) : Except Fault Unit := do
  if config.maxDepth = 0 then throw .maxDepth
  if config.maxResultDepth = 0 then throw .maxResultDepth
  (Identifier.check .table config.correlationPrefix.toList).mapError
    (.correlationPrefix config.correlationPrefix)

def depth? (value : Int) : Option Nat :=
  if 0 ≤ value ∧ value < 0x10000000000000000 then some value.toNat else none

def dialect? (name : String) : Option Dialect :=
  Dialect.all.find? fun dialect => dialect.name = name

def dialectOf? : Toml.Node → Option Dialect
  | .text name => dialect? name
  | .table _ [(name, node)] => if node.isEmpty then dialect? name else none
  | _ => none

def set? (config : Config) : String × Toml.Node → Option Config
  | ("dialect", node) => do some { config with dialect := ← dialectOf? node }
  | ("max_depth", .integer value) => do some { config with maxDepth := ← depth? value }
  | ("max_result_depth", .integer value) => do
    some { config with maxResultDepth := ← depth? value }
  | ("correlation_prefix", .text value) => some { config with correlationPrefix := value }
  | _ => none

/-- Reads a TOML document. Keys that are absent keep their defaults, and no other keys are
allowed. -/
def ofToml (source : String) : Except Fault Config := do
  match Toml.read? source >>= fun fields => fields.foldlM set? {} with
  | none => throw .unreadable
  | some config =>
    config.validate
    return config

/-- The column a local key is read back under. The qualifier stays in the name, so that keys of
different tables do not meet. -/
def hiddenKey (config : Config) (key : String) : String :=
  config.correlationPrefix ++
    String.ofList (['_', '_'].intercalate (key.toList.splitOn '.'))

def hiddenColumn (config : Config) (column : String) : String :=
  config.correlationPrefix ++ column

end Config

end RelationQuery
