import RelationQuery.Load
import RelationQuery.Proofs.Assembly
import RelationQuery.Proofs.Grounded

/-! Where the values in a query come from. Main statement: whatever calls are made, failing ones
included, a query holds no values but those the calls were given, and so do its statement and the
queries for its relations. -/
namespace RelationQuery

variable {config : Config} {given : Value → Prop} {q after : Query}

namespace Query

theorem grounded_keyOutputs (q : Query) (anchor : String) (relations : List Relation) :
    ∀ output ∈ q.keyOutputs anchor relations, output.Grounded given := by
  intro output member
  obtain ⟨⟨name, key⟩, _, rfl⟩ := List.mem_map.1 member
  exact True.intro

namespace Grounded

theorem aggregateNamed? (h : q.Grounded config given) {label : String}
    {aggregate : RelatedAggregate} (named : q.aggregateNamed? label = some aggregate) :
    aggregate.Grounded given := by
  have held := List.mem_of_find?_eq_some named
  obtain ⟨declaration, member, same⟩ := List.mem_filterMap.1 held
  cases declaration with
  | aggregate other =>
    cases same
    exact h.declarations _ member
  | relation | count | existence | filter => cases same

theorem fromTable (h : q.Grounded config given) {table : String}
    (ok : q.fromTable table = .ok after) : after.Grounded config given := by
  obtain ⟨⟨name, label⟩, _, ok⟩ := Outcome.exists_of_bind ok
  cases ok
  exact h.aside (fun _ => ⟨rfl, rfl, rfl, rfl⟩) fun _ => .inl

theorem select (h : q.Grounded config given) {column : String}
    (ok : q.select column = .ok after) : after.Grounded config given := by
  obtain ⟨⟨name, label⟩, _, ok⟩ := Outcome.exists_of_bind ok
  cases ok
  refine h.aside (fun _ => ⟨rfl, rfl, rfl, rfl⟩) fun output member => ?_
  exact (List.mem_append.1 member).imp id fun here => ⟨name, label, List.mem_singleton.1 here⟩

theorem join (h : q.Grounded config given) {kind : Join.Kind} {table left right : String}
    (ok : q.join kind table left right = .ok after) : after.Grounded config given := by
  obtain ⟨⟨name, label⟩, _, ok⟩ := Outcome.exists_of_bind ok
  obtain ⟨⟨⟩, _, ok⟩ := Outcome.exists_of_bind ok
  obtain ⟨⟨⟩, _, ok⟩ := Outcome.exists_of_bind ok
  cases ok
  exact h.aside (fun _ => ⟨rfl, rfl, rfl, rfl⟩) fun _ => .inl

theorem filter (h : q.Grounded config given) {connective : Connective} {key : String}
    {value : Value} (supplied : given value) (ok : q.filter connective key value = .ok after) :
    after.Grounded config given := by
  obtain ⟨⟨column, operator⟩, _, ok⟩ := Outcome.exists_of_bind ok
  obtain ⟨⟨⟩, _, ok⟩ := Outcome.exists_of_bind ok
  cases ok
  exact h.onStatement rfl
    (h.statement.addCondition connective (Condition.grounded_comparing supplied column operator))

theorem filterIn (h : q.Grounded config given) {connective : Connective} {negated : Bool}
    {column : String} {values : List Value} (supplied : ∀ value ∈ values, given value)
    (ok : q.filterIn connective negated column values = .ok after) :
    after.Grounded config given := by
  obtain ⟨⟨⟩, _, ok⟩ := Outcome.exists_of_bind ok
  cases ok
  exact h.onStatement rfl (h.statement.addCondition connective supplied)

theorem orderBy (h : q.Grounded config given) {column : String} {direction : Direction}
    (ok : q.orderBy column direction = .ok after) : after.Grounded config given := by
  obtain ⟨⟨⟩, _, ok⟩ := Outcome.exists_of_bind ok
  cases ok
  exact h.aside (fun _ => ⟨rfl, rfl, rfl, rfl⟩) fun _ => .inl

theorem orderByAggregate (h : q.Grounded config given) {label : String} {direction : Direction}
    (ok : q.orderByAggregate label direction = .ok after) : after.Grounded config given := by
  unfold Query.orderByAggregate at ok
  split at ok
  · cases ok
    exact h.aside (fun _ => ⟨rfl, rfl, rfl, rfl⟩) fun _ => .inl
  · cases ok

theorem filterAggregate (h : q.Grounded config given) {connective : Connective} {key : String}
    {value : Value} (supplied : given value)
    (ok : q.filterAggregate connective key value = .ok after) : after.Grounded config given := by
  obtain ⟨⟨label, operator⟩, _, ok⟩ := Outcome.exists_of_bind ok
  dsimp only at ok
  split at ok
  · obtain ⟨_, ok⟩ := Outcome.of_check ok
    split at ok
    · next aggregate named =>
      cases ok
      exact h.declare ⟨h.aggregateNamed? named, supplied⟩
    · cases ok
  · cases ok

section Edges

variable {step : Step} {edge : Edge Refinement} (within : step.Within given)
  (about : edge ∈ step.edge?)
include within about

theorem load (h : q.Grounded config given) {cardinality : Cardinality}
    (ok : q.load cardinality edge = .ok after) : after.Grounded config given := by
  obtain ⟨link, checked, ok⟩ := Outcome.exists_of_bind ok
  cases ok
  exact h.declare (Edge.grounded_link within about checked)

theorem aggregate (h : q.Grounded config given) {kind : Aggregate.Kind} {column : String}
    (ok : q.aggregate kind edge column = .ok after) : after.Grounded config given := by
  obtain ⟨link, checked, ok⟩ := Outcome.exists_of_bind ok
  obtain ⟨operand, _, ok⟩ := Outcome.exists_of_bind ok
  obtain ⟨_, ok⟩ := Outcome.of_check ok
  cases ok
  exact h.declare ⟨Edge.grounded_link within about checked, Link.not_mem_label checked kind⟩

theorem filterCount (h : q.Grounded config given) {connective : Connective} {operator : String}
    {count : Int} (ok : q.filterCount connective edge operator count = .ok after) :
    after.Grounded config given := by
  obtain ⟨link, checked, ok⟩ := Outcome.exists_of_bind ok
  dsimp only at ok
  split at ok
  · obtain ⟨_, ok⟩ := Outcome.of_check ok
    cases ok
    exact h.declare (Edge.grounded_link within about checked)
  · cases ok

theorem filterExists (h : q.Grounded config given) {connective : Connective} {negated : Bool}
    (ok : q.filterExists connective negated edge = .ok after) : after.Grounded config given := by
  obtain ⟨link, checked, ok⟩ := Outcome.exists_of_bind ok
  have linked : link.Grounded given := Edge.grounded_link within about checked
  dsimp only at ok
  split at ok
  · cases ok
    exact h.declare linked
  · cases ok
    refine ⟨h.configured, h.dialect, h.statement.reserve connective, h.declarations, ?_⟩
    intro deferred member
    rcases List.mem_append.1 member with old | here
    · exact h.deferrals deferred old
    · rw [List.mem_singleton.1 here]
      exact linked

theorem filterExistsNow {subquery : SubqueryCompiler} (sound : subquery.Sound given)
    (h : q.Grounded config given) {connective : Connective}
    (ok : q.filterExistsNow subquery connective edge = .ok after) :
    after.Grounded config given := by
  obtain ⟨link, checked, ok⟩ := Outcome.exists_of_bind ok
  obtain ⟨scope, _, ok⟩ := Outcome.exists_of_bind ok
  obtain ⟨condition, compiled, ok⟩ := Outcome.exists_of_bind ok
  cases ok
  have grounded : condition.Grounded given :=
    RelatedExistence.grounded_compile sound (Edge.grounded_link within about checked) compiled
  exact ⟨h.configured, h.dialect, h.statement.addCondition connective grounded, h.declarations,
    h.deferrals⟩

end Edges

theorem orUnchanged (h : q.Grounded config given) {result : Except Error Query}
    (ok : ∀ after, result = .ok after → after.Grounded config given) :
    (q.orUnchanged result).1.Grounded config given := by
  cases result with
  | error error => exact h
  | ok after => exact ok after rfl

section Subqueries

variable {subquery : SubqueryCompiler} (sound : subquery.Sound given)
include sound

theorem settle {deferrals : List Deferred} (h : q.Grounded config given)
    (held : ∀ deferred ∈ deferrals, deferred.existence.link.Grounded given) :
    (q.settle subquery deferrals).1.Grounded config given := by
  induction deferrals generalizing q with
  | nil => exact h
  | cons deferred rest ih =>
    unfold Query.settle
    dsimp only
    split
    · next statement filled =>
      obtain ⟨scope, _, filled⟩ := Outcome.exists_of_bind filled
      obtain ⟨condition, compiled, filled⟩ := Outcome.exists_of_bind filled
      have grounded : condition.Grounded given :=
        RelatedExistence.grounded_compile sound (held deferred List.mem_cons_self) compiled
      apply ih _ fun other member => held other (List.mem_cons_of_mem _ member)
      exact ⟨h.configured, (Statement.dialect_of_fill filled).trans h.dialect,
        h.statement.fill grounded filled, h.declarations, h.deferrals⟩
    · exact h

theorem closeGroup (h : q.Grounded config given) :
    (q.closeGroup subquery).1.Grounded config given := by
  unfold Query.closeGroup
  dsimp only
  split
  · exact h
  · rw [List.partition_eq_filter_filter]
    generalize (fun deferred : Deferred => decide (q.statement.openGroups ≤ deferred.depth)) = ready
    have waiting : Query.Grounded config given
        { q with deferrals := q.deferrals.filter (not ∘ ready) } :=
      ⟨h.configured, h.dialect, h.statement, h.declarations,
        fun deferred member => h.deferrals deferred (List.mem_filter.1 member).1⟩
    have settled : (Query.settle subquery (q.deferrals.filter ready)
        { q with deferrals := q.deferrals.filter (not ∘ ready) }).1.Grounded config given :=
      waiting.settle sound fun deferred member =>
        h.deferrals deferred (List.mem_filter.1 member).1
    split
    · next run =>
      rw [run] at settled
      exact settled
    · next run =>
      rw [run] at settled
      split
      · next closes =>
        exact ⟨settled.configured, (Statement.dialect_of_closeGroup closes).trans settled.dialect,
          settled.statement.closeGroup closes, settled.declarations, settled.deferrals⟩
      · exact settled

theorem applyUsing : ∀ (step : Step), step.Within given → ∀ {q : Query},
    q.Grounded config given → (q.applyUsing subquery step).1.Grounded config given
  | .fromTable _, _, _, h => h.orUnchanged fun _ => h.fromTable
  | .select _, _, _, h => h.orUnchanged fun _ => h.select
  | .join .., _, _, h => h.orUnchanged fun _ => h.join
  | .filter .., within, _, h => h.orUnchanged fun _ => h.filter (within _ (.filter ..))
  | .filterIn .., within, _, h =>
    h.orUnchanged fun _ => h.filterIn fun value member => within value (.filterIn _ _ _ member)
  | .openGroup connective negated, _, _, h =>
    h.onStatement rfl (h.statement.openGroup connective negated)
  | .closeGroup, _, _, h => h.closeGroup sound
  | .orderBy .., _, _, h => h.orUnchanged fun _ => h.orderBy
  | .limit count, _, _, h =>
    h.aside (f := ({ · with limit := some count })) (fun _ => ⟨rfl, rfl, rfl, rfl⟩) fun _ => .inl
  | .offset count, _, _, h =>
    h.aside (f := ({ · with offset := some count })) (fun _ => ⟨rfl, rfl, rfl, rfl⟩) fun _ => .inl
  | .countAll, _, _, h => ⟨h.configured, h.dialect, h.statement, h.declarations, h.deferrals⟩
  | .load .., within, _, h => h.orUnchanged fun _ => load within rfl h
  | .aggregate .., within, _, h => h.orUnchanged fun _ => aggregate within rfl h
  | .filterCount .., within, _, h => h.orUnchanged fun _ => filterCount within rfl h
  | .filterExists .., within, _, h => h.orUnchanged fun _ => filterExists within rfl h
  | .filterExistsNow .., within, _, h =>
    h.orUnchanged fun _ => filterExistsNow within rfl sound h
  | .filterAggregate .., within, _, h =>
    h.orUnchanged fun _ => h.filterAggregate (within _ (.filterAggregate ..))
  | .orderByAggregate .., _, _, h => h.orUnchanged fun _ => h.orderByAggregate
  | .fail _, _, _, h => h
  | .attempt step, within, _, h =>
    applyUsing step (fun value supplies => within value (.attempt supplies)) h

theorem refineUsing {steps : Refinement} (within : Refinement.Within given steps)
    (h : q.Grounded config given) (ok : q.refineUsing subquery steps = .ok after) :
    after.Grounded config given := by
  induction steps generalizing q with
  | nil =>
    cases ok
    exact h
  | cons step rest ih =>
    have here := applyUsing sound step (within step List.mem_cons_self) h
    unfold Query.refineUsing at ok
    split at ok
    · next next run =>
      rw [run] at here
      exact ih (fun step member => within step (List.mem_cons_of_mem _ member)) here ok
    · cases ok

theorem fillDeferred {scope : Scope} {deferrals : List Deferred} {s filled : Statement}
    (held : ∀ deferred ∈ deferrals, deferred.existence.link.Grounded given)
    (h : s.Grounded given) (ok : Query.fillDeferred subquery scope deferrals s = .ok filled) :
    filled.dialect = s.dialect ∧ filled.Grounded given := by
  let kept (state : Statement) : Prop := state.dialect = s.dialect ∧ state.Grounded given
  refine Outcome.of_foldlM ok (P := kept) ⟨rfl, h⟩ ?_
  rintro deferred member state next ⟨dialect, grounded⟩ step
  obtain ⟨condition, compiled, fills⟩ := Outcome.exists_of_bind step
  refine ⟨(Statement.dialect_of_fill fills).trans dialect, grounded.fill ?_ fills⟩
  exact RelatedExistence.grounded_compile sound (held deferred member) compiled

theorem assemble {assembly : Assembly} (h : q.Grounded config given)
    (ok : q.assemble subquery = .ok assembly) :
    assembly.statement.dialect = config.dialect ∧ assembly.statement.Grounded given ∧
      ∀ relation ∈ assembly.relations, relation.link.Grounded given := by
  obtain ⟨scope, parts, statement, _, compiled, filled, rfl⟩ := exists_of_assemble ok
  have all : parts.All (Condition.Grounded given) (Output.Grounded given) :=
    all_of_parts h.declarations compiled
      (fun _ grounded _ made => RelatedCount.grounded_compile sound grounded made)
      (fun _ grounded _ made => RelatedAggregate.grounded_compile sound grounded made)
      (fun _ grounded _ made => RelatedExistence.grounded_compile sound grounded made)
      (fun _ grounded _ made => AggregateFilter.grounded_compile sound grounded made)
  obtain ⟨dialect, grounded⟩ := fillDeferred sound h.deferrals h.statement filled
  have whole (first second third : List Connective) :=
    ((((grounded.entries first all.counts).entries second all.existences).entries third
      all.filters).outputting all.aggregates).outputting
        (q.grounded_keyOutputs scope.anchor (q.picked Declaration.relation?))
  refine ⟨dialect.trans h.dialect, ?_, sound_relation h.declarations⟩
  unfold declared
  simp only [← List.append_assoc]
  exact whole ..

end Subqueries

end Grounded

end Query

/-- However deep subqueries nest, they hold no more than the refinement of their link. -/
theorem compileSubqueryWithin_sound (levels : Nat) :
    (compileSubqueryWithin levels).Sound given := by
  induction levels with
  | zero =>
    intro scope link base rows _ made
    cases made
  | succ levels ih =>
    intro scope link base rows linked made
    obtain ⟨child, assembly, narrowed, assembled, _, filter, label, _⟩ :=
      exists_of_compileSubqueryWithin made
    have grounded : child.Grounded scope.config given :=
      (Query.Grounded.below ..).refineUsing ih linked.within narrowed
    obtain ⟨_, statement, _⟩ := grounded.assemble ih assembled
    cases rows
    exact ⟨(statement.of_filter filter).symm, _, label⟩

theorem compileSubquery_sound : compileSubquery.Sound given :=
  fun scope => compileSubqueryWithin_sound (scope.config.maxDepth - scope.depth) scope

namespace Query

theorem grounded_built (config : Config) (steps : List Step) :
    (built config steps).Grounded config fun value => ∃ step ∈ steps, step.Supplies value := by
  suffices kept : ∀ (given : Value → Prop), Refinement.Within given steps → ∀ q : Query,
      q.Grounded config given →
        (steps.foldl (fun q step => (q.apply step).1) q).Grounded config given from
    kept _ (fun step member value supplies => ⟨step, member, supplies⟩) _ (.empty config _)
  intro given within q h
  induction steps generalizing q with
  | nil => exact h
  | cons step rest ih =>
    apply ih fun step member => within step (List.mem_cons_of_mem _ member)
    exact Grounded.applyUsing compileSubquery_sound step (within step List.mem_cons_self) h

namespace Grounded

theorem compile {assembly : Assembly} (h : q.Grounded config given)
    (ok : q.compile = .ok assembly) :
    assembly.statement.dialect = config.dialect ∧ assembly.statement.Grounded given ∧
      ∀ relation ∈ assembly.relations, relation.link.Grounded given :=
  h.assemble compileSubquery_sound ok

theorem related {depth : Nat} {relation : Relation} (h : relation.link.Grounded given)
    (ok : relation.related config depth = .ok q) : q.Grounded config given := by
  obtain ⟨child, refined, ok⟩ := Outcome.exists_of_bind ok
  cases ok
  have grounded : child.Grounded config given :=
    (Query.Grounded.below ..).refineUsing compileSubquery_sound h.within refined
  unfold Relation.exposeKeys
  split
  · refine ⟨grounded.configured, grounded.dialect, ?_, grounded.declarations,
      grounded.deferrals⟩
    apply grounded.statement.outputting
    rw [← List.map_uncurry_zip_eq_zipWith]
    intro output member
    obtain ⟨⟨key, column⟩, _, rfl⟩ := List.mem_map.1 member
    exact True.intro
  · exact grounded

end Grounded

end Query

end RelationQuery
