import RelationQuery.Proofs.Contribution

/-! The statement that calls come to. Main statement: it is put together from what they add, kind by
kind, so that only the order within each kind matters. -/
namespace RelationQuery

def correlationColumns (config : Config) (selects : Bool) (anchor : String)
    (relations : List Relation) : List Output :=
  let keys := (relations.flatMap fun relation => relation.link.own).filter fun key =>
    selects || Name.isDotted key
  let named := keys.map fun key => (config.hiddenKey key, key)
  (named.eraseDupsBy fun first second => first.1 == second.1).map fun (name, key) =>
    .column (Name.qualify anchor key) (some name)

def declaredPieces (dialect : Dialect) (connectives : List Connective)
    (conditions : List Condition) : List (Connective × String) :=
  (List.zip connectives conditions).map (Prod.map id (Condition.sql dialect))

/-- The text put together from fragments over a table. The select list is the caller's or the whole
table, then the aggregates, then the columns of keys. The conditions are the ones put in place,
told by their outline, then those on counts, on existence and on aggregates. -/
def finalSql (config : Config) (table : Table) (fragments : List Fragment)
    (outline : Outline Condition) : Except Error String := do
  let dialect := config.dialect
  let scope : Scope := { config, depth := 0, anchor := table.knownAs }
  let declared {α : Type} (pick : Declaration → Option α) : List α :=
    fragments.filterMap fun fragment => fragment.declaration?.bind pick
  let counts := declared Declaration.count?
  let aggregates := declared Declaration.aggregate?
  let existences := declared Declaration.existence?
  let filters := declared Declaration.filter?
  let countConditions ← counts.mapM (RelatedCount.compile compileSubquery scope)
  let aggregateOutputs ← aggregates.mapM (RelatedAggregate.compile compileSubquery scope)
  let existenceConditions ← existences.mapM (RelatedExistence.compile compileSubquery scope)
  let filterConditions ← filters.mapM (AggregateFilter.compile compileSubquery scope)
  let outputs := fragments.filterMap Fragment.output?
  let chosen :=
    if outputs = [] then [dialect.quote table.knownAs ++ ".*"]
    else outputs.map (Output.sql dialect)
  let columns := chosen ++ (aggregateOutputs ++
    correlationColumns config (!outputs.isEmpty) table.knownAs
      (declared Declaration.relation?)).map (Output.sql dialect)
  let pieces := outline.pieces (Condition.sql dialect) ++
    declaredPieces dialect (counts.map (·.connective)) countConditions ++
    declaredPieces dialect (existences.map (·.connective)) existenceConditions ++
    declaredPieces dialect (filters.map (·.connective)) filterConditions
  let source : Source := { table, joins := fragments.filterMap Fragment.join? }
  let rest : Statement := {
    dialect
    ordering := fragments.filterMap Fragment.ordering?
    limit := (fragments.filterMap Fragment.limit?).getLast?
    offset := (fragments.filterMap Fragment.offset?).getLast? }
  return "SELECT " ++ String.intercalate ", " columns ++ " FROM " ++ source.sql dialect ++
    (if pieces = [] then "" else " WHERE " ++ Connective.join pieces) ++ rest.orderSql ++
    rest.pagingSql

namespace Clause

def items (conditions : List (Connective × Condition)) : Clause Condition :=
  conditions.map fun (connective, condition) => .item connective condition

theorem text_items (dialect : Dialect) (leading : Bool)
    (conditions : List (Connective × Condition)) :
    text leading ((items conditions).map (Entry.map (Condition.sql dialect))) =
      Outline.joinFrom leading (conditions.map (Prod.map id (Condition.sql dialect))) := by
  induction conditions generalizing leading with
  | nil => rfl
  | cons condition rest ih => exact congrArg (joint leading _ ++ _ ++ ·) (ih false)

theorem sql?_append_items (dialect : Dialect) (outline : Outline Condition)
    (conditions : List (Connective × Condition)) :
    sql? dialect (outline.clause ++ items conditions) =
      let pieces := outline.pieces (Condition.sql dialect) ++
        conditions.map (Prod.map id (Condition.sql dialect))
      if pieces = [] then none else some (Connective.join pieces) := by
  have bare : outline.clause = [] ↔ outline.pieces (Condition.sql dialect) = [] :=
    Outline.clause_eq_nil_iff _ outline
  have empty : (outline.clause ++ items conditions).isEmpty ↔
      outline.pieces (Condition.sql dialect) ++
        conditions.map (Prod.map id (Condition.sql dialect)) = [] := by
    simp [items, bare]
  unfold sql?
  dsimp only
  by_cases bare : outline.pieces (Condition.sql dialect) ++
      conditions.map (Prod.map id (Condition.sql dialect)) = []
  · rw [if_pos (empty.2 bare), if_pos bare]
  · rw [if_neg fun h => bare (empty.1 h), if_neg bare, Condition.clauseSql_eq_map, List.map_append,
      Outline.text_clause, text_items, ← Outline.joinFrom_append, Outline.joinFrom_true]

end Clause

theorem intercalate_append {first : List String} (held : first ≠ []) (rest : List String) :
    String.intercalate ", " (first ++ rest) =
      String.intercalate ", " first ++ String.join (rest.map (", " ++ ·)) := by
  induction rest generalizing first with
  | nil => simp
  | cons text rest ih =>
    have more := ih (List.append_ne_nil_of_left_ne_nil held [text])
    rw [List.append_assoc, List.singleton_append] at more
    rw [more, String.intercalate_append_of_ne_nil held (List.cons_ne_nil text []),
      String.intercalate_singleton, List.map_cons, String.join_cons, String.append_assoc,
      String.append_assoc, String.append_assoc]

namespace Query

theorem keyOutputs_eq (q : Query) (anchor : String) (relations : List Relation) :
    q.keyOutputs anchor relations =
      correlationColumns q.config q.statement.hasSelectList anchor relations := rfl

theorem entries_eq (connectives : List Connective) (conditions : List Condition) :
    entries connectives conditions =
      (Clause.items (List.zip connectives conditions)).map (Entry.map .ready) := by
  unfold entries Clause.items
  rw [List.map_map, ← List.map_uncurry_zip_eq_zipWith]
  rfl

def declaredConditions (parts : Parts) (q : Query) : List (Connective × Condition) :=
  List.zip ((q.picked Declaration.count?).map (·.connective)) parts.counts ++
    List.zip ((q.picked Declaration.existence?).map (·.connective)) parts.existences ++
    List.zip ((q.picked Declaration.filter?).map (·.connective)) parts.filters

theorem declared_eq (parts : Parts) (q : Query) : q.declared parts =
    (Clause.items (q.declaredConditions parts)).map (Entry.map .ready) := by
  simp [declared, declaredConditions, entries_eq, Clause.items]

/-- The text of a query in which nothing waits: everything compiled, and put together. -/
theorem sql_eq_of_outline {q : Query} {table : Table} {outline : Outline Condition}
    (closed : q.statement.openGroups = 0) (idle : q.deferrals = []) (plain : q.correlated = false)
    (known : q.statement.table = some table)
    (conditions : q.statement.conditions = outline.clause.map (Entry.map .ready)) :
    q.sql = do
      let parts ← q.parts compileSubquery ⟨q.config, q.depth, table.knownAs⟩
      let s := (q.assembled table.knownAs parts).statement
      let pieces := outline.pieces (Condition.sql s.dialect) ++
        (q.declaredConditions parts).map (Prod.map id (Condition.sql s.dialect))
      return "SELECT " ++ s.projectionSql table ++ " FROM " ++
        ({ table, joins := s.joins } : Source).sql s.dialect ++
        (if pieces = [] then "" else " WHERE " ++ Connective.join pieces) ++ s.orderSql ++
        s.pagingSql := by
  unfold Query.sql compile
  rw [assemble_eq closed idle, scope_of_table known, Outcome.ok_bind,
    checkRelations_of_plain plain]
  simp only [bind_assoc]
  refine bind_congr fun parts => ?_
  let s := (q.assembled table.knownAs parts).statement
  have filter : s.filter = .ok (outline.clause ++ Clause.items (q.declaredConditions parts)) := by
    have closed : s.openGroups = 0 := closed
    apply Statement.filter_of_ready closed
    rw [List.map_append, ← declared_eq, ← conditions]
    rfl
  change s.sql = _
  have table : s.requireTable = .ok table := Statement.requireTable_ok_iff.2 known
  rw [Statement.sql_eq, table, filter, Outcome.ok_bind, Outcome.ok_bind]
  unfold Statement.bodyText
  rw [Clause.sql?_append_items]
  dsimp only
  by_cases bare : outline.pieces (Condition.sql s.dialect) ++
      (q.declaredConditions parts).map (Prod.map id (Condition.sql s.dialect)) = []
  · rw [if_pos bare, if_pos bare, String.append_empty]
  · rw [if_neg bare, if_neg bare]
    simp only [String.append_assoc]
    rfl

theorem projectionSql_eq (s : Statement) (table : Table) : s.projectionSql table =
    String.intercalate ", "
      ((if s.outputs = [] then [s.dialect.quote table.knownAs ++ ".*"]
        else s.outputs.map (Output.sql s.dialect)) ++ s.extras.map (Output.sql s.dialect)) := by
  unfold Statement.projectionSql
  by_cases whole : s.outputs = []
  · rw [if_pos whole, intercalate_append (List.cons_ne_nil _ _), String.intercalate_singleton,
      List.map_map]
    simp [whole, Function.comp_def]
  · rw [if_neg whole, intercalate_append (by simpa using whole), List.map_map]
    simp [whole, Function.comp_def]

theorem picked_summed {α : Type} (pick : Declaration → Option α) (config : Config) (table : Table)
    (fragments : List Fragment) (outline : Outline Condition) (wantsTotal : Bool) :
    (summed config table fragments outline wantsTotal).picked pick =
      fragments.filterMap fun fragment => fragment.declaration?.bind pick :=
  List.filterMap_filterMap

theorem sql_summed (config : Config) (table : Table) (fragments : List Fragment)
    (outline : Outline Condition) (wantsTotal : Bool) :
    (summed config table fragments outline wantsTotal).sql =
      finalSql config table fragments outline := by
  rw [sql_eq_of_outline rfl rfl rfl rfl rfl]
  unfold parts finalSql
  simp only [bind_assoc, pure_bind, picked_summed, declaredConditions, projectionSql_eq]
  refine bind_congr fun counts => bind_congr fun aggregates => bind_congr fun existences =>
    bind_congr fun filters => ?_
  simp only [assembled, keyOutputs_eq, picked_summed, List.map_append, List.append_assoc]
  rfl

end Query

end RelationQuery
