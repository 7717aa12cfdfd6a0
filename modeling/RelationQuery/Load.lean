import Std.Data.HashMap
import Std.Data.HashSet
import RelationQuery.Key
import RelationQuery.Query.Subquery

/-! Running a query: the statement first, then one fetch for each relation, whose rows are joined
to the rows they belong to. -/
namespace RelationQuery

abbrev Driver := List String → String → Except DriverError (List Row)

/-- A run leaves the statements it sent, in order, also when it fails. -/
abbrev Load := ExceptT Error (StateM (List String))

namespace Load

def exec {α : Type} (load : Load α) (sent : List String) : Except Error α × List String :=
  (load.run.run sent).run

def ofExcept {α : Type} (result : Except Error α) : Load α := ExceptT.mk (pure result)

def ask (driver : Driver) (sql : String) : Load (List Row) := do
  let sent ← get
  set (sent ++ [sql])
  match driver sent sql with
  | .ok rows => return rows
  | .error cause => throw (.refused cause sql)

variable {α β : Type} (sent : List String)

@[simp] theorem exec_pure (a : α) : exec (pure a) sent = (.ok a, sent) := rfl

@[simp] theorem exec_throw (error : Error) :
    exec (throw error : Load α) sent = (.error error, sent) := rfl

@[simp] theorem exec_ofExcept (result : Except Error α) :
    exec (ofExcept result) sent = (result, sent) := rfl

theorem exec_ask (driver : Driver) (sql : String) :
    exec (ask driver sql) sent =
      ((driver sent sql).mapError (.refused · sql), sent ++ [sql]) := by
  change exec (match driver sent sql with
    | .ok rows => pure rows
    | .error cause => throw (.refused cause sql)) (sent ++ [sql]) = _
  cases driver sent sql <;> rfl

theorem exec_bind (load : Load α) (next : α → Load β) :
    exec (load >>= next) sent =
      match exec load sent with
      | (.ok a, sent) => exec (next a) sent
      | (.error error, sent) => (.error error, sent) := by
  change (match exec load sent with
    | (result, sent) => (StateT.run (ExceptT.bindCont next result) sent).run) = _
  rcases exec load sent with ⟨_ | _, _⟩ <;> rfl

@[simp] theorem ofExcept_ok_bind (a : α) (next : α → Load β) :
    ofExcept (.ok a) >>= next = next a := rfl

@[simp] theorem ofExcept_error_bind (error : Error) (next : α → Load β) :
    ofExcept (.error error) >>= next = throw error := rfl

theorem exec_map (f : α → β) (load : Load α) :
    exec (f <$> load) sent = ((exec load sent).1.map f, (exec load sent).2) := by
  rw [map_eq_pure_bind, exec_bind]
  rcases exec load sent with ⟨_ | _, _⟩ <;> rfl

theorem ext {load other : Load α} (h : ∀ sent, exec load sent = exec other sent) :
    load = other := by
  apply ExceptT.ext
  funext sent
  exact h sent

end Load

abbrev Fetch (α : Type) := Clause Place → Query → Load α

namespace Relation

def ownNames (config : Config) (relation : Relation) : List KeyName :=
  relation.link.own.map (KeyName.own config)

def foreignNames (config : Config) (relation : Relation) : List KeyName :=
  relation.link.foreign.map (KeyName.foreign config)

def keepKey (kept : Std.HashSet String × Array (List Value)) (key : List Value) :
    Std.HashSet String × Array (List Value) :=
  if kept.1.contains (Key.text key) then kept
  else (kept.1.insert (Key.text key), kept.2.push key)

def distinctKeys (names : List KeyName) (rows : List Row) : List (List Value) :=
  ((rows.filterMap (KeyName.readAll names)).foldl keepKey (∅, #[])).2.toList

def keyFilter (columns : List String) (keys : List (List Value)) : Clause Place :=
  match columns with
  | [column] => [.item .and (.ready (.member column false (keys.filterMap List.head?)))]
  | columns =>
    let equality (column : String) (value : Value) : Entry Place :=
      .item .and (.ready (.comparing column (.compare .equal) value))
    let alternative (key : List Value) : Clause Place :=
      .opening .or false :: (List.zipWith equality columns key ++ [.closing])
    .opening .and false :: (keys.flatMap alternative ++ [.closing])

/-- Adds a row to the group of its key. A row without a complete key belongs nowhere. -/
def addToGroup (names : List KeyName) (groups : Std.HashMap String (Array Row)) (row : Row) :
    Std.HashMap String (Array Row) :=
  match KeyName.readAll names row with
  | some key => groups.alter (Key.text key) fun group? => some ((group?.getD #[]).push row)
  | none => groups

def groupRows (names : List KeyName) (rows : List Row) : Std.HashMap String (Array Row) :=
  rows.foldl (addToGroup names) ∅

def gather (cardinality : Cardinality) (rows : List Row) : Value :=
  match cardinality with
  | .many => .array (rows.map .object)
  | .one => (rows.head?.map Value.object).getD .null

def joinRows (config : Config) (relation : Relation) (rows fetched : List Row) : List Row :=
  let groups := groupRows (relation.foreignNames config) fetched
  rows.map fun row =>
    let matching := (KeyName.readAll (relation.ownNames config) row).bind (groups[Key.text ·]?)
    Fields.put relation.label (gather relation.cardinality ((matching.getD #[]).toList)) row

/-- With an explicit select list the keys are read back under reserved names. -/
def exposeKeys (config : Config) (relation : Relation) (columns : List String) (q : Query) :
    Query :=
  if q.statement.hasSelectList then
    let extras := List.zipWith (fun key column =>
      .column column (some (config.hiddenColumn (Name.last key)))) relation.link.foreign columns
    { q with statement := { q.statement with extras := q.statement.extras ++ extras } }
  else q

def table (relation : Relation) : Table :=
  { name := relation.link.target, label := relation.link.label }

def foreignColumns (relation : Relation) : List String :=
  relation.link.foreign.map fun key => relation.table.knownAs ++ "." ++ Name.last key

def related (config : Config) (depth : Nat) (relation : Relation) : Except Error Query := do
  let query := Query.below config relation.table (depth + 1) false
  let query ← query.refine (relation.link.refinement.getD [])
  return relation.exposeKeys config relation.foreignColumns query

def fetchRelated {α : Type} (fetch? : Option (Fetch α)) (config : Config) (depth : Nat)
    (keys : List (List Value)) (relation : Relation) : Load α := do
  let some fetch := fetch? | throw (.tooDeep config.maxDepth)
  let query ← Load.ofExcept (relation.related config depth)
  fetch (keyFilter relation.foreignColumns keys) query

/-- Loads one relation for all rows with a single fetch, or with none when no row has a key. -/
def attach (fetch? : Option (Fetch (List Row))) (config : Config) (depth : Nat)
    (rows : List Row) (relation : Relation) : Load (List Row) := do
  let keys := distinctKeys (relation.ownNames config) rows
  if keys.isEmpty then
    return rows.map (Fields.put relation.label (gather relation.cardinality []))
  let fetched ← relation.fetchRelated fetch? config depth keys
  return relation.joinRows config rows fetched

end Relation

namespace Query

def loadUsing (driver : Driver) (fetch? : Option (Fetch (List Row))) (q : Query)
    (assembly : Assembly) : Load (List Row) := do
  let rows ← Load.ask driver (← Load.ofExcept assembly.statement.sql)
  assembly.relations.foldlM (Relation.attach fetch? q.config q.depth) rows

/-- How related rows are fetched while relations may nest `levels` deeper. -/
def fetchWithin (driver : Driver) : Nat → Option (Fetch (List Row))
  | 0 => none
  | levels + 1 => some fun lead q => do
    let assembly ← Load.ofExcept q.compile
    q.loadUsing driver (fetchWithin driver levels)
      { assembly with statement := assembly.statement.follow lead }

/-- Asks for the number of rows. An answer without it, or with no unsigned number, counts none. -/
def countRows (driver : Driver) (q : Query) (assembly : Assembly) : Load Nat := do
  let column := q.config.hiddenColumn "total"
  let rows ← Load.ask driver (← Load.ofExcept (assembly.statement.countSql column))
  return (rows.head?.bind (Fields.get? · column)).elim 0 Value.count

def run (driver : Driver) (q : Query) : Load (List Row × Option Nat) := do
  let assembly ← Load.ofExcept q.compile
  let total ← if q.wantsTotal then some <$> q.countRows driver assembly else pure none
  let rows ← q.loadUsing driver (fetchWithin driver (q.config.maxDepth - q.depth)) assembly
  return (rows, total)

end Query

end RelationQuery
