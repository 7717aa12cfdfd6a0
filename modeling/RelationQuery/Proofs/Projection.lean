import RelationQuery.Proofs.Naming
import RelationQuery.Proofs.WellFormed
import RelationQuery.Proofs.Writing

/-! Aggregate columns and the conditions on them. Main statement: a condition on an aggregate tests
the very text that is projected under its label, and under this label there is no other. -/
namespace RelationQuery

namespace Outcome

variable {ε α β : Type}

theorem exists_of_mapM_split {f : α → Except ε β} {front back : List α} {x : α} {ys : List β}
    (h : (front ++ x :: back).mapM f = .ok ys) :
    ∃ before y after, ys = before ++ y :: after ∧ front.mapM f = .ok before ∧ f x = .ok y ∧
      back.mapM f = .ok after := by
  rw [List.mapM_append] at h
  obtain ⟨before, first, h⟩ := exists_of_bind h
  obtain ⟨rest, last, h⟩ := exists_of_bind h
  rw [List.mapM_cons] at last
  obtain ⟨y, here, last⟩ := exists_of_bind last
  obtain ⟨after, later, last⟩ := exists_of_bind last
  cases last
  cases h
  exact ⟨before, y, after, rfl, first, here, later⟩

end Outcome

def Output.aggregateLabel? : Output → Option String
  | .aggregate _ _ label => some label
  | .column .. => none

namespace Query

/-- What successful calls make of a query that returns rows: of a fresh one, or of one over the
rows of a relation that is loaded along, whose keys are exposed then. -/
inductive Called (steps : Refinement) : Query → Prop
  | fresh {config : Config} {q : Query} (ran : (empty config).refine steps = .ok q) :
    Called steps q
  | along {config : Config} {table : Table} {depth : Nat} {q : Query}
    (ran : (below config table depth false).refine steps = .ok q) : Called steps q
  | exposed {q : Query} (called : Called steps q) (config : Config) (relation : Relation)
    (columns : List String) : Called steps (relation.exposeKeys config columns q)

/-- The statements that a query is compiled to: its own, and the one behind the keys of the rows
that it is loaded along for. -/
inductive Sends (q : Query) : Statement → Prop
  | base {assembly : Assembly} (compiled : q.compile = .ok assembly) : Sends q assembly.statement
  | fetch {assembly : Assembly} (compiled : q.compile = .ok assembly) (lead : Clause Place) :
    Sends q (assembly.statement.follow lead)

theorem called_of_related {config : Config} {depth : Nat} {relation : Relation} {q : Query}
    (h : relation.related config depth = .ok q) :
    q.Called (relation.link.refinement.getD []) := by
  obtain ⟨child, refined, h⟩ := Outcome.exists_of_bind h
  cases h
  exact .exposed (.along refined) ..

structure Returning (q : Query) : Prop where
  formed : q.WellFormed
  plain : q.correlated = false
  columns : ∀ output ∈ q.statement.outputs ++ q.statement.extras, output.aggregateLabel? = none

variable {subquery : SubqueryCompiler} {q after : Query}

theorem columns_put {fragment : Fragment}
    (h : ∀ output ∈ q.statement.outputs ++ q.statement.extras, output.aggregateLabel? = none) :
    ∀ output ∈ (q.put fragment).statement.outputs ++ (q.put fragment).statement.extras,
      output.aggregateLabel? = none := by
  cases fragment with
  | output name label =>
    intro output member
    change output ∈ (q.statement.outputs ++ [.column name label]) ++ q.statement.extras at member
    rw [List.append_assoc, List.mem_append, List.mem_append, List.mem_singleton] at member
    rcases member with old | rfl | extra
    · exact h output (List.mem_append_left _ old)
    · rfl
    · exact h output (List.mem_append_right _ extra)
  | entry entry => cases entry <;> exact h
  | _ => exact h

theorem correlated_put (fragment : Fragment) : (q.put fragment).correlated = q.correlated := by
  cases fragment with
  | entry entry => cases entry <;> rfl
  | _ => rfl

theorem plain_applyUsing (step : Step) (plain : q.correlated = false)
    (columns : ∀ output ∈ q.statement.outputs ++ q.statement.extras,
      output.aggregateLabel? = none) :
    (q.applyUsing subquery step).1.correlated = false ∧
      ∀ output ∈ (q.applyUsing subquery step).1.statement.outputs ++
        (q.applyUsing subquery step).1.statement.extras, output.aggregateLabel? = none := by
  let kept (q : Query) : Prop := q.correlated = false ∧
    ∀ output ∈ q.statement.outputs ++ q.statement.extras, output.aggregateLabel? = none
  refine of_moves (P := kept) ?_ ⟨plain, columns⟩
  rintro q after ⟨plain, columns⟩ moves
  cases moves with
  | put => exact ⟨(correlated_put _).trans plain, columns_put columns⟩
  | fill _ _ _ fills =>
    obtain ⟨_, _, rfl⟩ := Statement.exists_of_fill fills
    exact ⟨plain, columns⟩
  | defer | drop => exact ⟨plain, columns⟩

theorem Returning.applyUsing (h : q.Returning) (step : Step) :
    (q.applyUsing subquery step).1.Returning := by
  obtain ⟨plain, columns⟩ := @plain_applyUsing subquery q step h.plain h.columns
  exact ⟨h.formed.applyUsing subquery step, plain, columns⟩

theorem Returning.refine (h : q.Returning) {steps : Refinement}
    (ran : q.refine steps = .ok after) : after.Returning :=
  of_refineUsing (fun step _ held => held.applyUsing step) h ran

theorem Called.returning {steps : Refinement} (called : q.Called steps) : q.Returning := by
  induction called with
  | fresh ran => exact Returning.refine ⟨.empty _, rfl, nofun⟩ ran
  | @along config table depth _ ran =>
    exact Returning.refine ⟨.below config table depth false, rfl, nofun⟩ ran
  | exposed _ config relation columns ih =>
    unfold Relation.exposeKeys
    split
    · refine ⟨ih.formed.of_eq rfl rfl rfl rfl rfl, ih.plain, fun output member => ?_⟩
      rw [← List.append_assoc] at member
      refine (List.mem_append.1 member).elim (ih.columns output) fun key => ?_
      rw [← List.map_uncurry_zip_eq_zipWith] at key
      obtain ⟨_, _, rfl⟩ := List.mem_map.1 key
      rfl
    · exact ih

/-! ### From the call to the declaration -/

theorem declarations_subset_put (fragment : Fragment) :
    q.declarations ⊆ (q.put fragment).declarations := by
  cases fragment with
  | declared declaration => exact List.subset_append_left _ _
  | entry entry => cases entry <;> exact List.Subset.refl _
  | _ => exact List.Subset.refl _

theorem declarations_subset_applyUsing (step : Step) (q : Query) :
    q.declarations ⊆ (q.applyUsing subquery step).1.declarations := by
  refine of_moves (P := fun after => q.declarations ⊆ after.declarations) ?_ (List.Subset.refl _)
  intro mid after held moves
  cases moves with
  | put => exact List.Subset.trans held (declarations_subset_put _)
  | defer | fill | drop => exact held

theorem declarations_subset_refine {steps : Refinement} (ran : q.refine steps = .ok after) :
    q.declarations ⊆ after.declarations :=
  of_refineUsing (P := fun other => q.declarations ⊆ other.declarations)
    (fun step other held => List.Subset.trans held (declarations_subset_applyUsing step other))
    (List.Subset.refl _) ran

theorem refine_append (front back : Refinement) (q : Query) :
    q.refine (front ++ back) = q.refine front >>= fun mid => mid.refine back := by
  induction front generalizing q with
  | nil => rfl
  | cons step rest ih =>
    unfold refine at ih ⊢
    rw [List.cons_append, refineUsing, refineUsing]
    rcases q.applyUsing compileSubquery step with ⟨next, _ | error⟩
    · exact ih next
    · rfl

theorem exists_of_refine_split {front back : Refinement} {step : Step}
    (ran : q.refine (front ++ step :: back) = .ok after) :
    ∃ before between : Query, before.apply step = (between, none) ∧
      between.refine back = .ok after := by
  rw [refine_append] at ran
  obtain ⟨before, -, ran⟩ := Outcome.exists_of_bind ran
  unfold refine refineUsing at ran
  split at ran
  · next between went => exact ⟨before, between, went, ran⟩
  · cases ran

theorem exists_of_filterAggregate {connective : Connective} {key : String} {value : Value}
    (called : q.filterAggregate connective key value = .ok after) :
    ∃ label comparison aggregate, splitKey key = .ok (label, .compare comparison) ∧
      aggregate.label = label ∧
      .filter { aggregate, comparison, value, connective } ∈ after.declarations := by
  obtain ⟨⟨label, operator⟩, parted, called⟩ := Outcome.exists_of_bind called
  dsimp only at called
  split at called
  · next comparison =>
    obtain ⟨_, called⟩ := Outcome.of_check called
    split at called
    · next aggregate found =>
      cases called
      have labelled : aggregate.label = label := by
        simpa using List.find?_some (p := fun held : RelatedAggregate => held.label = label) found
      exact ⟨label, comparison, aggregate, parted, labelled, List.mem_append_right _
        List.mem_cons_self⟩
    · cases called
  · cases called

theorem exists_filter_of_called {front back : Refinement} {connective : Connective} {key : String}
    {value : Value} (called : q.Called (front ++ .filterAggregate connective key value :: back)) :
    ∃ label comparison aggregate, splitKey key = .ok (label, .compare comparison) ∧
      aggregate.label = label ∧
      .filter { aggregate, comparison, value, connective } ∈ q.declarations := by
  have of_run {start q : Query}
      (ran : start.refine (front ++ .filterAggregate connective key value :: back) = .ok q) :
      ∃ label comparison aggregate, splitKey key = .ok (label, .compare comparison) ∧
        aggregate.label = label ∧
        .filter { aggregate, comparison, value, connective } ∈ q.declarations := by
    obtain ⟨before, between, went, later⟩ := exists_of_refine_split ran
    have made : before.filterAggregate connective key value = .ok between := by
      change before.orUnchanged _ = _ at went
      cases outcome : before.filterAggregate connective key value with
      | error error => simp [outcome, orUnchanged] at went
      | ok other => simpa [outcome, orUnchanged] using went
    obtain ⟨label, comparison, aggregate, parted, labelled, declared⟩ :=
      exists_of_filterAggregate made
    exact ⟨label, comparison, aggregate, parted, labelled,
      declarations_subset_refine later declared⟩
  induction called with
  | fresh ran => exact of_run ran
  | along ran => exact of_run ran
  | exposed _ config relation columns ih =>
    unfold Relation.exposeKeys
    split <;> exact ih

/-! ### From the declaration to the text -/

theorem mapM_of_parts {scope : Scope} {parts : Parts} (ok : q.parts subquery scope = .ok parts) :
    (if q.correlated then [] else q.picked Declaration.aggregate?).mapM
        (RelatedAggregate.compile subquery scope) = .ok parts.aggregates ∧
      (q.picked Declaration.filter?).mapM (AggregateFilter.compile subquery scope) =
        .ok parts.filters := by
  unfold Query.parts at ok
  obtain ⟨counts, _, ok⟩ := Outcome.exists_of_bind ok
  obtain ⟨aggregates, aggregated, ok⟩ := Outcome.exists_of_bind ok
  obtain ⟨existences, _, ok⟩ := Outcome.exists_of_bind ok
  obtain ⟨filters, filtered, ok⟩ := Outcome.exists_of_bind ok
  cases ok
  exact ⟨aggregated, filtered⟩

theorem mem_entries_of_mapM {α : Type} {compile : α → Except Error Condition}
    (connective : α → Connective) {held : List α} {conditions : List Condition}
    (compiled : held.mapM compile = .ok conditions) {one : α} (member : one ∈ held) :
    ∃ condition, compile one = .ok condition ∧
      .item (connective one) (.ready condition) ∈ entries (held.map connective) conditions := by
  induction held generalizing conditions with
  | nil => cases member
  | cons first rest ih =>
    rw [List.mapM_cons] at compiled
    obtain ⟨condition, here, compiled⟩ := Outcome.exists_of_bind compiled
    obtain ⟨others, later, compiled⟩ := Outcome.exists_of_bind compiled
    cases compiled
    rcases List.mem_cons.1 member with rfl | member
    · exact ⟨condition, here, List.mem_cons_self⟩
    · obtain ⟨other, made, found⟩ := ih later member
      exact ⟨other, made, List.mem_cons_of_mem _ found⟩

theorem outputs_of_fillDeferred {scope : Scope} {deferrals : List Deferred}
    {s filled : Statement} (ok : fillDeferred subquery scope deferrals s = .ok filled) :
    filled.outputs = s.outputs ∧ filled.extras = s.extras := by
  refine Outcome.of_foldlM ok (P := fun state => state.outputs = s.outputs ∧
    state.extras = s.extras) ⟨rfl, rfl⟩ ?_
  rintro deferred - state next same step
  obtain ⟨condition, _, fills⟩ := Outcome.exists_of_bind step
  obtain ⟨_, _, rfl⟩ := Statement.exists_of_fill fills
  exact same

theorem aggregateLabel?_of_keyOutputs {anchor : String} {relations : List Relation}
    {output : Output} (member : output ∈ q.keyOutputs anchor relations) :
    output.aggregateLabel? = none := by
  obtain ⟨_, _, rfl⟩ := List.mem_map.1 member
  rfl

theorem aggregateLabel?_ne_of_mapM {scope : Scope} {held : List RelatedAggregate}
    {outputs : List Output} {label : String}
    (compiled : held.mapM (RelatedAggregate.compile subquery scope) = .ok outputs)
    (others : label ∉ held.map RelatedAggregate.label) :
    ∀ output ∈ outputs, output.aggregateLabel? ≠ some label := by
  intro output member
  obtain ⟨aggregate, found, made⟩ := Outcome.exists_of_mapM compiled output member
  obtain ⟨_, _, _, _, rfl⟩ := RelatedAggregate.exists_of_compile made
  rintro ⟨⟩
  exact others (List.mem_map_of_mem found)

/-- A condition on an aggregate and the one column under its label are compiled from the same
subquery. -/
theorem Returning.exists_of_filter (h : q.Returning) {filter : AggregateFilter}
    (declared : .filter filter ∈ q.declarations) {assembly : Assembly}
    (compiled : q.compile = .ok assembly) :
    ∃ scope rows measure before after, q.scope = .ok scope ∧
      compileSubquery scope filter.aggregate.link filter.aggregate.label = .ok rows ∧
      filter.aggregate.measure.compile = .ok measure ∧
      .item filter.connective (.ready (.aggregate measure rows filter.comparison
        filter.value)) ∈ assembly.statement.conditions ∧
      assembly.statement.extras =
        before ++ .aggregate measure rows filter.aggregate.label :: after ∧
      ∀ output ∈ assembly.statement.outputs ++ before ++ after,
        output.aggregateLabel? ≠ some filter.aggregate.label := by
  obtain ⟨scope, parts, statement, known, made, filled, rfl⟩ := exists_of_assemble compiled
  obtain ⟨aggregated, filtered⟩ := mapM_of_parts made
  obtain ⟨outputs, extras⟩ := outputs_of_fillDeferred filled
  obtain ⟨front, back, split⟩ := List.append_of_mem (h.formed.mem_aggregates_of_filter declared)
  have labels := h.formed.labels
  rw [split, List.map_append, List.map_cons, List.nodup_append, List.nodup_cons] at labels
  obtain ⟨-, ⟨behind, -⟩, apart⟩ := labels
  have ahead : filter.aggregate.label ∉ front.map RelatedAggregate.label :=
    fun member => apart _ member _ List.mem_cons_self rfl
  change (if q.correlated then [] else q.aggregates).mapM _ = _ at aggregated
  rw [h.plain, if_neg Bool.false_ne_true, split] at aggregated
  obtain ⟨before, output, after, columns, first, here, last⟩ :=
    Outcome.exists_of_mapM_split aggregated
  obtain ⟨measure, rows, selected, read, rfl⟩ := RelatedAggregate.exists_of_compile here
  have asked : filter ∈ q.picked Declaration.filter? := List.mem_filterMap.2 ⟨_, declared, rfl⟩
  obtain ⟨condition, tests, placed⟩ :=
    mem_entries_of_mapM AggregateFilter.connective filtered asked
  obtain ⟨other, again, same, reread, rfl⟩ := AggregateFilter.exists_of_compile tests
  obtain rfl : rows = again := Except.ok.inj (selected.symm.trans same)
  obtain rfl : measure = other := Except.ok.inj (read.symm.trans reread)
  refine ⟨scope, rows, measure, statement.extras ++ before,
    after ++ q.keyOutputs scope.anchor (q.picked Declaration.relation?), known, selected, read,
    List.mem_append_right _ (List.mem_append_right _ placed), ?_, ?_⟩
  · simp [columns]
  · intro output member
    have plain (member : output ∈ q.statement.outputs ++ q.statement.extras) :
        output.aggregateLabel? ≠ some filter.aggregate.label := by
      rw [h.columns output member]
      nofun
    simp only [outputs, extras, List.mem_append] at member
    rcases member with (chosen | extra | other) | other | key
    · exact plain (List.mem_append_left _ chosen)
    · exact plain (List.mem_append_right _ extra)
    · exact aggregateLabel?_ne_of_mapM first ahead output other
    · exact aggregateLabel?_ne_of_mapM last behind output other
    · rw [aggregateLabel?_of_keyOutputs key]
      nofun

end Query

namespace Statement

variable {s : Statement}

theorem mem_filter_of_ready {connective : Connective} {condition : Condition}
    {clause : Clause Condition} (member : .item connective (.ready condition) ∈ s.conditions)
    (settled : s.filter = .ok clause) : .item connective condition ∈ clause := by
  rw [(ready_of_filter settled).2] at member
  obtain ⟨entry, held, same⟩ := List.mem_map.1 member
  cases entry <;> cases same
  exact held

theorem mem_follow {entry : Entry Place} (lead : Clause Place) (member : entry ∈ s.conditions) :
    entry ∈ (s.follow lead).conditions := by
  change entry ∈ Clause.behind _ _
  unfold Clause.behind
  rw [if_neg (by simp [List.ne_nil_of_mem member])]
  simp [member]

theorem exists_of_sql_of_extra {text : String} (written : s.sql = .ok text)
    {connective : Connective} {condition : Condition}
    (placed : .item connective (.ready condition) ∈ s.conditions) {before after : List Output}
    {output : Output} (extras : s.extras = before ++ output :: after) :
    ∃ table clause, s.table = some table ∧ s.filter = .ok clause ∧
      .item connective (condition.sql s.dialect) ∈ Condition.clauseSql s.dialect clause ∧
      text = "SELECT " ++ projectionSql { s with extras := before } table ++
        ", " ++ output.sql s.dialect ++
        String.join (after.map fun extra => ", " ++ extra.sql s.dialect) ++
        " FROM " ++ ({ table, joins := s.joins } : Source).sql s.dialect ++
        " WHERE " ++ Clause.text true (Condition.clauseSql s.dialect clause) ++
        s.orderSql ++ s.pagingSql := by
  rw [sql_eq] at written
  obtain ⟨table, based, written⟩ := Outcome.exists_of_bind written
  obtain ⟨clause, settled, written⟩ := Outcome.exists_of_bind written
  cases written
  have member := mem_filter_of_ready placed settled
  refine ⟨table, clause, requireTable_ok_iff.1 based, settled, ?_, ?_⟩
  · rw [Condition.clauseSql_eq_map]
    exact List.mem_map.2 ⟨_, member, rfl⟩
  · have shown : clause.sql? s.dialect =
        some (Clause.text true (Condition.clauseSql s.dialect clause)) := by
      unfold Clause.sql?
      rw [if_neg (by simp [List.ne_nil_of_mem member])]
    have projected : s.projectionSql table = projectionSql { s with extras := before } table ++
        ", " ++ output.sql s.dialect ++
        String.join (after.map fun extra => ", " ++ extra.sql s.dialect) := by
      unfold projectionSql
      rw [extras, List.map_append, List.map_cons, String.join_append, String.join_cons]
      simp only [String.append_assoc]
    unfold bodyText
    rw [shown, projected]
    simp only [String.append_assoc]

end Statement

/-- Each call for a condition on an aggregate declares one. Whatever else was called, before or
after, a condition on an aggregate compares what the statement projects under its label, letter for
letter; and under this label the statement projects no other aggregate. -/
theorem Query.filterAggregate_tests_projection {steps : Refinement} {q : Query} {s : Statement}
    {text : String} (called : q.Called steps) (sends : q.Sends s) (written : s.sql = .ok text) :
    (∀ connective key value, .filterAggregate connective key value ∈ steps →
      ∃ label comparison aggregate, splitKey key = .ok (label, .compare comparison) ∧
        aggregate.label = label ∧
        .filter { aggregate, comparison, value, connective } ∈ q.declarations) ∧
    ∀ connective aggregate comparison value,
      .filter { aggregate, comparison, value, connective } ∈ q.declarations →
      ∃ scope rows measure table clause before after,
        .aggregate aggregate ∈ q.declarations ∧
        q.scope = .ok scope ∧ compileSubquery scope aggregate.link aggregate.label = .ok rows ∧
        aggregate.measure.compile = .ok measure ∧
        s.table = some table ∧ s.filter = .ok clause ∧
        .item connective ("COALESCE(" ++ rows.aggregateSql s.dialect measure ++ ", 0) " ++
          comparison.sql ++ " " ++ value.sql s.dialect) ∈ Condition.clauseSql s.dialect clause ∧
        text = "SELECT " ++ Statement.projectionSql { s with extras := before } table ++ ", " ++
          (rows.aggregateSql s.dialect measure ++ " AS " ++ s.dialect.quote aggregate.label) ++
          String.join (after.map fun extra => ", " ++ extra.sql s.dialect) ++
          " FROM " ++ ({ table, joins := s.joins } : Source).sql s.dialect ++
          " WHERE " ++ Clause.text true (Condition.clauseSql s.dialect clause) ++
          s.orderSql ++ s.pagingSql ∧
        s.extras = before ++ .aggregate measure rows aggregate.label :: after ∧
        ∀ output ∈ s.outputs ++ before ++ after,
          output.aggregateLabel? ≠ some aggregate.label := by
  refine ⟨fun connective key value member => ?_,
    fun connective aggregate comparison value declared => ?_⟩
  · obtain ⟨front, back, rfl⟩ := List.append_of_mem member
    exact exists_filter_of_called called
  · have returning := called.returning
    obtain ⟨assembly, compiled, outputs, extras, conditions⟩ : ∃ assembly,
        q.compile = .ok assembly ∧ s.outputs = assembly.statement.outputs ∧
        s.extras = assembly.statement.extras ∧
        ∀ entry ∈ assembly.statement.conditions, entry ∈ s.conditions := by
      cases sends with
      | base compiled => exact ⟨_, compiled, rfl, rfl, fun _ => id⟩
      | fetch compiled lead => exact ⟨_, compiled, rfl, rfl, fun _ => Statement.mem_follow lead⟩
    obtain ⟨scope, rows, measure, before, after, known, selected, read, placed, shown, alone⟩ :=
      returning.exists_of_filter declared compiled
    obtain ⟨table, clause, based, settled, tests, text⟩ :=
      Statement.exists_of_sql_of_extra written (conditions _ placed) (extras.trans shown)
    refine ⟨scope, rows, measure, table, clause, before, after,
      returning.formed.aggregate_of_filter declared, known, selected, read, based, settled, tests,
      text, extras.trans shown, ?_⟩
    rw [outputs]
    exact alone

def spentCalls : Refinement :=
  [.fromTable "users",
   .aggregate .sum {
     target := "orders as spent"
     foreign := ["user_id"]
     own := ["id"]
     refinement := some [
       .filter .and "status" (.text "paid"),
       .filterExists .or false {
         target := "refunds", foreign := ["order_id"], own := ["id"] }] } "total",
   .openGroup .and true]

def laterCalls : Refinement :=
  [.filter .and "name" .null,
   .closeGroup,
   .aggregate .count { target := "orders", foreign := ["user_id"], own := ["id"] } "*"]

def spentText : String :=
  "(SELECT SUM(\"spent_s1\".\"total\") FROM \"orders\" AS \"spent_s1\" WHERE " ++
    "\"spent_s1\".\"user_id\" = \"users\".\"id\" AND (\"status\" = 'paid' OR EXISTS (SELECT 1 " ++
    "FROM \"refunds\" AS \"refunds_s2\" WHERE \"refunds_s2\".\"order_id\" = \"spent_s1\".\"id\")))"

def spentStatement : String :=
  "SELECT \"users\".*, " ++ spentText ++ " AS \"spent\", (SELECT COUNT(*) FROM \"orders\" AS " ++
    "\"orders_count_s1\" WHERE \"orders_count_s1\".\"user_id\" = \"users\".\"id\") AS " ++
    "\"orders_count\" FROM \"users\" WHERE NOT (\"name\" IS NULL) OR COALESCE(" ++ spentText ++
    ", 0) >= 1"

theorem spent_is_tested_and_shown : ∃ q s, ∃ aggregate : RelatedAggregate,
    ∃ rows : Subquery Condition, ∃ measure clause before after,
    Query.Called
      (spentCalls ++ Step.filterAggregate .or "spent >=" (.boolean true) :: laterCalls) q ∧
    Query.Sends q s ∧ s.sql = .ok spentStatement ∧ s.filter = .ok clause ∧
    aggregate.label = "spent" ∧ aggregate.measure.compile = .ok measure ∧
    .item .or ("COALESCE(" ++ rows.aggregateSql s.dialect measure ++ ", 0) " ++
      Comparison.sql .greaterOrEqual ++ " " ++ (Value.boolean true).sql s.dialect) ∈
        Condition.clauseSql s.dialect clause ∧
    s.extras = before ++ .aggregate measure rows aggregate.label :: after ∧
    ∀ output ∈ s.outputs ++ before ++ after,
      output.aggregateLabel? ≠ some aggregate.label := by
  have compiles : (do
      let q ← (Query.empty {}).refine
        (spentCalls ++ Step.filterAggregate .or "spent >=" (.boolean true) :: laterCalls)
      q.sql).toOption = some spentStatement := by decide +kernel
  obtain ⟨q, ran, written⟩ := Outcome.exists_of_bind (Outcome.ok_of_toOption compiles)
  obtain ⟨assembly, compiled, written⟩ := Outcome.exists_of_bind written
  have called := Query.Called.fresh ran
  have sends := Query.Sends.base compiled
  obtain ⟨declares, tested⟩ := Query.filterAggregate_tests_projection called sends written
  obtain ⟨label, comparison, aggregate, parted, labelled, declared⟩ :=
    declares .or "spent >=" (.boolean true) (by simp)
  have read : Query.splitKey "spent >=" = .ok ("spent", .compare .greaterOrEqual) := rfl
  obtain ⟨rfl, rfl⟩ : label = "spent" ∧ comparison = .greaterOrEqual := by
    simpa using parted.symm.trans read
  obtain ⟨scope, rows, measure, table, clause, before, after, -, -, -, read, -, settled, tests, -,
    shown, alone⟩ := tested _ _ _ _ declared
  exact ⟨q, _, aggregate, rows, measure, clause, before, after, called, sends, written, settled,
    labelled, read, tests, shown, alone⟩

end RelationQuery
