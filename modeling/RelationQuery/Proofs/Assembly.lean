import RelationQuery.Proofs.Outcome
import RelationQuery.Query.Subquery

/-! What the compilation of a query puts together, also when nothing waits any more. -/
namespace RelationQuery

/-- What the declarations of a query compile to, kind by kind. -/
structure Parts where
  counts : List Condition
  aggregates : List Output
  existences : List Condition
  filters : List Condition

section Aggregates

variable {subquery : SubqueryCompiler} {scope : Scope}

theorem RelatedAggregate.of_selection {aggregate : RelatedAggregate}
    {measure : Aggregate Expression} {rows : Subquery Condition}
    (h : aggregate.selection subquery scope = .ok (measure, rows)) :
    subquery scope aggregate.link aggregate.label = .ok rows ∧
      aggregate.measure.compile = .ok measure := by
  obtain ⟨_, selected, h⟩ := Outcome.exists_of_bind h
  obtain ⟨_, compiled, h⟩ := Outcome.exists_of_bind h
  cases h
  exact ⟨selected, compiled⟩

theorem RelatedAggregate.exists_of_compile {aggregate : RelatedAggregate} {output : Output}
    (h : aggregate.compile subquery scope = .ok output) :
    ∃ measure rows, subquery scope aggregate.link aggregate.label = .ok rows ∧
      aggregate.measure.compile = .ok measure ∧
      output = .aggregate measure rows aggregate.label := by
  obtain ⟨⟨measure, rows⟩, selected, h⟩ := Outcome.exists_of_bind h
  cases h
  obtain ⟨selected, compiled⟩ := of_selection selected
  exact ⟨measure, rows, selected, compiled, rfl⟩

theorem AggregateFilter.exists_of_compile {filter : AggregateFilter} {condition : Condition}
    (h : filter.compile subquery scope = .ok condition) :
    ∃ measure rows, subquery scope filter.aggregate.link filter.aggregate.label = .ok rows ∧
      filter.aggregate.measure.compile = .ok measure ∧
      condition = .aggregate measure rows filter.comparison filter.value := by
  obtain ⟨⟨measure, rows⟩, selected, h⟩ := Outcome.exists_of_bind h
  cases h
  obtain ⟨selected, compiled⟩ := RelatedAggregate.of_selection selected
  exact ⟨measure, rows, selected, compiled, rfl⟩

end Aggregates

structure Parts.All (fine : Condition → Prop) (good : Output → Prop) (parts : Parts) : Prop where
  counts : ∀ condition ∈ parts.counts, fine condition
  aggregates : ∀ output ∈ parts.aggregates, good output
  existences : ∀ condition ∈ parts.existences, fine condition
  filters : ∀ condition ∈ parts.filters, fine condition

namespace Query

def picked {α : Type} (pick : Declaration → Option α) (q : Query) : List α :=
  q.declarations.filterMap pick

def parts (subquery : SubqueryCompiler) (scope : Scope) (q : Query) : Except Error Parts := do
  return {
    counts := ← (q.picked Declaration.count?).mapM (RelatedCount.compile subquery scope)
    aggregates := ← (if q.correlated then [] else q.picked Declaration.aggregate?).mapM
      (RelatedAggregate.compile subquery scope)
    existences := ← (q.picked Declaration.existence?).mapM
      (RelatedExistence.compile subquery scope)
    filters := ← (q.picked Declaration.filter?).mapM (AggregateFilter.compile subquery scope) }

def checkRelations (q : Query) : Except Error Unit :=
  match q.picked Declaration.relation? with
  | relation :: _ =>
    if q.correlated then .error (.compile (.eagerInSubquery relation.label)) else .ok ()
  | [] => .ok ()

theorem checkRelations_of_plain {q : Query} (plain : q.correlated = false) :
    q.checkRelations = .ok () := by
  unfold checkRelations
  cases q.picked Declaration.relation? <;> simp [plain]

theorem scope_of_table {q : Query} {table : Table} (known : q.statement.table = some table) :
    q.scope = .ok ⟨q.config, q.depth, table.knownAs⟩ := by
  unfold scope Statement.knownAs Statement.requireTable
  rw [known]
  rfl

def declared (parts : Parts) (q : Query) : Clause Place :=
  entries ((q.picked Declaration.count?).map (·.connective)) parts.counts ++
    entries ((q.picked Declaration.existence?).map (·.connective)) parts.existences ++
    entries ((q.picked Declaration.filter?).map (·.connective)) parts.filters

def assembled (anchor : String) (parts : Parts) (q : Query) : Assembly :=
  { statement := { q.statement with
      conditions := q.statement.conditions ++ q.declared parts
      extras := q.statement.extras ++ parts.aggregates ++
        q.keyOutputs anchor (q.picked Declaration.relation?) }
    relations := q.picked Declaration.relation? }

/-- Compilation, when nothing waits: no part of it depends on another. -/
theorem assemble_eq {q : Query} (closed : q.statement.openGroups = 0) (idle : q.deferrals = [])
    (subquery : SubqueryCompiler) : q.assemble subquery = do
      let scope ← q.scope
      let parts ← q.parts subquery scope
      q.checkRelations
      return q.assembled scope.anchor parts := by
  have shut : ¬0 < q.statement.openGroups := by simp [closed]
  unfold assemble
  rw [if_neg shut, idle]
  refine bind_congr fun scope => ?_
  unfold parts
  simp only [bind_assoc, pure_bind]
  refine bind_congr fun counts => bind_congr fun aggregates => ?_
  change (Except.ok q.statement >>= _) = _
  rw [Outcome.ok_bind]
  refine bind_congr fun existences => bind_congr fun filters => ?_
  unfold checkRelations assembled declared picked
  simp only [List.append_assoc]
  cases q.declarations.filterMap Declaration.relation? with
  | nil => rfl
  | cons relation rest => cases q.correlated <;> rfl

section Sound

variable {subquery : SubqueryCompiler} {scope : Scope} {q : Query} {sound : Declaration → Prop}
  (declarations : ∀ declaration ∈ q.declarations, sound declaration)
include declarations

theorem sound_relation : ∀ relation ∈ q.picked Declaration.relation?,
    sound (.relation relation) := by
  intro relation member
  obtain ⟨declaration, found, same⟩ := List.mem_filterMap.1 member
  have here := declarations declaration found
  cases declaration <;> cases same
  exact here

theorem good_of_mapM {α β : Type} {pick : Declaration → Option α} {compile : α → Except Error β}
    {made : List β} {good : β → Prop} (ok : (q.picked pick).mapM compile = .ok made)
    (each : ∀ declaration held, pick declaration = some held → sound declaration →
      ∀ result, compile held = .ok result → good result) :
    ∀ result ∈ made, good result := by
  intro result member
  obtain ⟨held, found, compiled⟩ := Outcome.exists_of_mapM ok result member
  obtain ⟨declaration, declared, picks⟩ := List.mem_filterMap.1 found
  exact each declaration held picks (declarations declaration declared) result compiled

theorem all_of_parts {parts : Parts} {fine : Condition → Prop} {good : Output → Prop}
    (ok : q.parts subquery scope = .ok parts)
    (count : ∀ held, sound (.count held) →
      ∀ condition, held.compile subquery scope = .ok condition → fine condition)
    (aggregate : ∀ held, sound (.aggregate held) →
      ∀ output, held.compile subquery scope = .ok output → good output)
    (existence : ∀ held, sound (.existence held) →
      ∀ condition, held.compile subquery scope = .ok condition → fine condition)
    (filter : ∀ held, sound (.filter held) →
      ∀ condition, held.compile subquery scope = .ok condition → fine condition) :
    parts.All fine good := by
  unfold Query.parts at ok
  obtain ⟨counts, counted, ok⟩ := Outcome.exists_of_bind ok
  obtain ⟨aggregates, aggregated, ok⟩ := Outcome.exists_of_bind ok
  obtain ⟨existences, existing, ok⟩ := Outcome.exists_of_bind ok
  obtain ⟨filters, filtered, ok⟩ := Outcome.exists_of_bind ok
  cases ok
  constructor
  · refine good_of_mapM declarations counted fun declaration held same => ?_
    cases declaration <;> cases same
    exact count held
  · split at aggregated
    · cases aggregated
      exact fun _ => (nomatch ·)
    · refine good_of_mapM declarations aggregated fun declaration held same => ?_
      cases declaration <;> cases same
      exact aggregate held
  · refine good_of_mapM declarations existing fun declaration held same => ?_
    cases declaration <;> cases same
    exact existence held
  · refine good_of_mapM declarations filtered fun declaration held same => ?_
    cases declaration <;> cases same
    exact filter held

end Sound

theorem exists_of_assemble {subquery : SubqueryCompiler} {q : Query} {assembly : Assembly}
    (h : q.assemble subquery = .ok assembly) :
    ∃ scope parts statement, q.scope = .ok scope ∧ q.parts subquery scope = .ok parts ∧
      fillDeferred subquery scope q.deferrals q.statement = .ok statement ∧
      assembly = {
        statement := { statement with
          conditions := statement.conditions ++ q.declared parts
          extras := statement.extras ++ parts.aggregates ++
            q.keyOutputs scope.anchor (q.picked Declaration.relation?) }
        relations := q.picked Declaration.relation? } := by
  unfold assemble at h
  obtain ⟨_, h⟩ := Outcome.of_check h
  obtain ⟨scope, known, h⟩ := Outcome.exists_of_bind h
  obtain ⟨counts, counted, h⟩ := Outcome.exists_of_bind h
  obtain ⟨aggregates, aggregated, h⟩ := Outcome.exists_of_bind h
  obtain ⟨statement, filled, h⟩ := Outcome.exists_of_bind h
  obtain ⟨existences, existing, h⟩ := Outcome.exists_of_bind h
  obtain ⟨filters, filtered, h⟩ := Outcome.exists_of_bind h
  refine ⟨scope, { counts, aggregates, existences, filters }, statement, known, ?_, filled, ?_⟩
  · unfold parts picked
    rw [counted, aggregated, existing, filtered]
    rfl
  · unfold declared picked
    simp only [← List.append_assoc]
    generalize q.declarations.filterMap Declaration.relation? = relations at h ⊢
    cases relations with
    | nil =>
      cases h
      rfl
    | cons relation rest =>
      obtain ⟨_, h⟩ := Outcome.of_check h
      cases h
      rfl

end Query

/-- A subquery comes of a query over the related rows, refined and compiled one level down. -/
theorem exists_of_compileSubqueryWithin {levels : Nat} {scope : Scope} {link : Link Refinement}
    {base : String} {rows : Subquery Condition}
    (made : compileSubqueryWithin (levels + 1) scope link base = .ok rows) :
    ∃ child assembly,
      (Query.below scope.config { name := link.target, label := some rows.label }
        (scope.depth + 1) true).refineUsing (compileSubqueryWithin levels)
          (link.refinement.getD []) = .ok child ∧
      child.assemble (compileSubqueryWithin levels) = .ok assembly ∧
      assembly.statement.source = .ok rows.source ∧
      assembly.statement.filter = .ok rows.refinement ∧
      rows.label = base ++ "_s" ++ toString (scope.depth + 1) ∧
      rows.keys = link.keyMatches rows.label scope.anchor := by
  unfold compileSubqueryWithin at made
  obtain ⟨child, refined, made⟩ := Outcome.exists_of_bind made
  obtain ⟨assembly, assembled, made⟩ := Outcome.exists_of_bind made
  dsimp only at made
  split at made
  · cases made
  · obtain ⟨source, sourced, made⟩ := Outcome.exists_of_bind made
    obtain ⟨clause, filtered, made⟩ := Outcome.exists_of_bind made
    cases made
    exact ⟨child, assembly, refined, assembled, sourced, filtered, rfl, rfl⟩

end RelationQuery
