import RelationQuery.Proofs.Capture
import RelationQuery.Proofs.WellFormed

/-! Which tables the keys of subqueries are tied to. Main statement: on the inside a subquery is
tied to the label that its table was begun with, on the outside to the table that the query around
it had when the subquery was compiled; these are the tables it stands in, unless a table is set
later. -/
namespace RelationQuery

def Step.table? : Step → Option Table
  | .fromTable raw => (checkLabelled .table raw).toOption.map fun (name, label) => { name, label }
  | .attempt step => step.table?
  | _ => none

def Refinement.tableAfter (calls : Refinement) (begun : Option Table) : Option Table :=
  calls.foldl (fun table step => step.table? <|> table) begun

inductive Step.Asks : Step → Link Refinement → Prop
  | aggregate {edge : Edge Refinement} {link : Link Refinement} (kind : Aggregate.Kind)
    (column : String) (checked : edge.link = .ok link) : Asks (.aggregate kind edge column) link
  | filterCount {edge : Edge Refinement} {link : Link Refinement} (connective : Connective)
    (operator : String) (count : Int) (checked : edge.link = .ok link) :
    Asks (.filterCount connective edge operator count) link
  | filterExists {edge : Edge Refinement} {link : Link Refinement} (connective : Connective)
    (negated : Bool) (checked : edge.link = .ok link) :
    Asks (.filterExists connective negated edge) link
  | filterExistsNow {edge : Edge Refinement} {link : Link Refinement} (connective : Connective)
    (checked : edge.link = .ok link) : Asks (.filterExistsNow connective edge) link
  | attempt {step : Step} {link : Link Refinement} (asks : Asks step link) :
    Asks (.attempt step) link

inductive Refinement.Reaches (calls : Refinement) : Link Refinement → Prop
  | here {step : Step} {link : Link Refinement} (member : step ∈ calls) (asks : step.Asks link) :
    Reaches calls link
  | inside {link inner : Link Refinement} {step : Step} (reaches : Reaches calls link)
    (member : step ∈ link.refinement.getD []) (asks : step.Asks inner) : Reaches calls inner

def Link.tableAs (link : Link Refinement) (label : String) : Table :=
  { name := link.target, label := some label }

mutual

/-- A subquery that calls make, on a query begun over `begun`: one of the calls has asked for its
link. It was compiled behind all of them, or, for an existence condition, perhaps earlier, and is
tied to the table that the query had then. -/
inductive Subquery.Anchored : Refinement → Option Table → Subquery Condition → Prop
  | behind {front back : Refinement} {begun : Option Table} {step : Step}
    {link : Link Refinement} {table : Table} {rows : Subquery Condition} (member : step ∈ front)
    (asks : step.Asks link) (early : back ≠ [] → step.declaresExistence)
    (held : Refinement.tableAfter front begun = some table)
    (tied : Tied link table.knownAs rows) : Anchored (front ++ back) begun rows

/-- A subquery over the rows of a link, tied to a table known by `anchor`. Its own table is the
target of the link under the label its keys have, unless the refinement sets another one. -/
inductive Subquery.Tied : Link Refinement → String → Subquery Condition → Prop
  | mk {link : Link Refinement} {anchor : String} {rows : Subquery Condition}
    (keys : rows.keys = link.keyMatches rows.label anchor)
    (table : Refinement.tableAfter (link.refinement.getD []) (link.tableAs rows.label) =
      some rows.source.table)
    (nested : ∀ inner ∈ rows.nested,
      Anchored (link.refinement.getD []) (link.tableAs rows.label) inner) :
    Tied link anchor rows

end

/-! ### What steps leave of tables and subqueries -/

namespace Refinement

variable {calls front back : Refinement} {begun : Option Table}

theorem tableAfter_append (front back : Refinement) (begun : Option Table) :
    tableAfter (front ++ back) begun = tableAfter back (tableAfter front begun) :=
  List.foldl_append ..

theorem tableAfter_of_keeps (keeps : ∀ step ∈ calls, step.table? = none) :
    tableAfter calls begun = begun := by
  induction calls with
  | nil => rfl
  | cons step rest ih =>
    obtain ⟨here, later⟩ := List.forall_mem_cons.1 keeps
    unfold tableAfter at ih ⊢
    rw [List.foldl_cons, here]
    exact ih later

end Refinement

theorem Step.table?_eq_none : ∀ {step : Step}, ¬step.setsTable → step.table? = none
  | .attempt step, keeps => @table?_eq_none step keeps
  | .fromTable _, keeps => absurd rfl keeps
  | .select _, _ | .join .., _ | .filter .., _ | .filterIn .., _ | .openGroup .., _
  | .closeGroup, _ | .orderBy .., _ | .limit _, _ | .offset _, _ | .countAll, _ | .load .., _
  | .aggregate .., _ | .filterCount .., _ | .filterExists .., _ | .filterExistsNow .., _
  | .filterAggregate .., _ | .orderByAggregate .., _ | .fail _, _ => rfl

namespace Query

variable {subquery : SubqueryCompiler} {q after : Query} {calls : Refinement}
  {begun : Option Table}

theorem applyUsing_of_setsTable : ∀ {step : Step}, step.setsTable → ∀ q : Query,
    (q.applyUsing subquery step).1 =
      step.table?.elim q fun table => q.onStatement (·.fromTable table)
  | .attempt step, sets, q => @applyUsing_of_setsTable step sets q
  | .fromTable raw, _, q => by
    change (q.orUnchanged (do
      let (name, label) ← checkLabelled .table raw
      return q.onStatement (·.fromTable { name, label }))).1 = _
    unfold Step.table?
    cases checkLabelled .table raw <;> rfl

end Query

def Declaration.Asked (calls : Refinement) : Declaration → Prop
  | .relation _ => True
  | declaration => ∃ step ∈ calls, step.Asks declaration.link

def Link.Waited (calls : Refinement) (link : Link Refinement) : Prop :=
  ∃ step ∈ calls, step.Asks link ∧ step.declaresExistence

structure Query.Follows (calls : Refinement) (begun : Option Table) (q : Query) : Prop where
  table : q.statement.table = Refinement.tableAfter calls begun
  subqueries : ∀ rows ∈ q.statement.subqueries, ∃ front back link table,
    calls = front ++ back ∧ Link.Waited front link ∧
    Refinement.tableAfter front begun = some table ∧ rows.Tied link table.knownAs
  declarations : ∀ declaration ∈ q.declarations, declaration.Asked calls
  deferrals : ∀ deferred ∈ q.deferrals, deferred.existence.link.Waited calls

def SubqueryCompiler.Ties (subquery : SubqueryCompiler) : Prop :=
  ∀ scope link base rows, subquery scope link base = .ok rows → rows.Tied link scope.anchor

theorem Declaration.Asked.append {calls : Refinement} {declaration : Declaration}
    (asked : declaration.Asked calls) (more : Refinement) : declaration.Asked (calls ++ more) := by
  cases declaration with
  | relation => trivial
  | aggregate | count | existence | filter =>
    obtain ⟨step, member, asks⟩ := asked
    exact ⟨step, List.mem_append_left _ member, asks⟩

theorem Link.Waited.append {calls : Refinement} {link : Link Refinement}
    (waited : link.Waited calls) (more : Refinement) : link.Waited (calls ++ more) := by
  obtain ⟨step, member, asks, declares⟩ := waited
  exact ⟨step, List.mem_append_left _ member, asks, declares⟩

section Calls

variable {subquery : SubqueryCompiler} {scope : Except Error Scope}
  {aggregates : List RelatedAggregate} {step : Step} {fragment : Fragment}

theorem Step.Gives.declared (gives : step.Gives subquery scope aggregates fragment) :
    ∀ declaration, fragment = .declared declaration →
      (∃ relation, declaration = .relation relation) ∨
      (∃ filter, declaration = .filter filter ∧ filter.aggregate ∈ aggregates) ∨
      step.Asks declaration.link := by
  induction gives with
  | load cardinality checked =>
    rintro _ ⟨⟩
    exact .inl ⟨_, rfl⟩
  | filterAggregate connective key value comparison member =>
    rintro _ ⟨⟩
    exact .inr (.inl ⟨_, rfl, member⟩)
  | aggregate kind column operand checked =>
    rintro _ ⟨⟩
    exact .inr (.inr (.aggregate kind column checked))
  | filterCount connective operator comparison count checked =>
    rintro _ ⟨⟩
    exact .inr (.inr (.filterCount connective operator count checked))
  | filterExists connective negated checked =>
    rintro _ ⟨⟩
    exact .inr (.inr (.filterExists connective negated checked))
  | attempt _ ih =>
    exact fun declaration same => (ih declaration same).imp_right (Or.imp_right .attempt)
  | _ => rintro _ ⟨⟩

theorem Step.Gives.compiled (gives : step.Gives subquery scope aggregates fragment) :
    ∀ entry, fragment = .entry entry → ∀ rows ∈ entry.content?.bind Condition.rows?,
      ∃ held link base, scope = .ok held ∧ step.Asks link ∧ step.declaresExistence ∧
        subquery held link base = .ok rows := by
  induction gives with
  | filterExistsHere checked found compiled =>
    rintro _ ⟨⟩ rows brings
    exact ⟨_, _, _, found, .filterExists _ _ checked, rfl,
      RelatedExistence.rows_of_compile compiled brings⟩
  | filterExistsNow checked found compiled =>
    rintro _ ⟨⟩ rows brings
    exact ⟨_, _, _, found, .filterExistsNow _ checked, rfl,
      RelatedExistence.rows_of_compile compiled brings⟩
  | attempt _ ih =>
    intro entry same rows brings
    obtain ⟨held, link, base, found, asks, declares, made⟩ := ih entry same rows brings
    exact ⟨held, link, base, found, .attempt asks, declares, made⟩
  | filter =>
    rintro _ ⟨⟩ rows brings
    simp only [Entry.content?, Option.bind_some] at brings
    unfold Condition.comparing at brings
    split at brings <;> cases brings
  | filterIn | openGroup | closeGroup =>
    rintro _ ⟨⟩ rows brings
    cases brings
  | _ => rintro _ ⟨⟩

theorem Step.Defers.waited {existence : RelatedExistence} (defers : step.Defers existence) :
    step.Asks existence.link ∧ step.declaresExistence := by
  induction defers with
  | filterExists connective negated checked => exact ⟨.filterExists connective negated checked, rfl⟩
  | attempt _ ih => exact ⟨.attempt ih.1, ih.2⟩

end Calls

namespace Query

variable {subquery : SubqueryCompiler} {q after : Query} {calls : Refinement}
  {begun : Option Table} {step : Step}

theorem exists_table_of_scope {scope : Scope} (known : q.scope = .ok scope) :
    ∃ table, q.statement.table = some table ∧ scope.anchor = table.knownAs := by
  cases held : q.statement.table with
  | none =>
    unfold Query.scope Statement.knownAs Statement.requireTable at known
    rw [held] at known
    cases known
  | some table => exact ⟨table, rfl, anchor_of_scope known held⟩

namespace Follows

theorem next (h : q.Follows calls begun)
    (table : after.statement.table = Refinement.tableAfter (calls ++ [step]) begun)
    (subqueries : after.statement.subqueries = q.statement.subqueries)
    (declarations : after.declarations = q.declarations)
    (deferrals : after.deferrals = q.deferrals) : after.Follows (calls ++ [step]) begun where
  table := table
  subqueries rows member := by
    obtain ⟨front, back, link, outer, rfl, waited, held, tied⟩ :=
      h.subqueries rows (subqueries ▸ member)
    exact ⟨front, back ++ [step], link, outer, List.append_assoc .., waited, held, tied⟩
  declarations declaration member :=
    (h.declarations declaration (declarations ▸ member)).append _
  deferrals deferred member := (h.deferrals deferred (deferrals ▸ member)).append _

theorem new (h : q.Follows calls begun) (ties : subquery.Ties) {scope : Scope}
    {link : Link Refinement} {base : String} {rows : Subquery Condition}
    (waited : link.Waited calls) (known : q.scope = .ok scope)
    (made : subquery scope link base = .ok rows) : ∃ front back link table,
      calls = front ++ back ∧ Link.Waited front link ∧
      Refinement.tableAfter front begun = some table ∧ rows.Tied link table.knownAs := by
  obtain ⟨table, held, anchor⟩ := exists_table_of_scope known
  exact ⟨calls, [], link, table, (List.append_nil _).symm, waited, h.table ▸ held,
    anchor ▸ ties scope link base rows made⟩

theorem declare (h : q.Follows calls begun) (member : step ∈ calls) {scope : Except Error Scope}
    {declaration : Declaration}
    (gives : step.Gives subquery scope q.aggregates (.declared declaration)) :
    declaration.Asked calls := by
  rcases gives.declared _ rfl with ⟨relation, rfl⟩ | ⟨filter, rfl, copied⟩ | asks
  · trivial
  · obtain ⟨held, found, same⟩ := List.mem_filterMap.1 copied
    have asked := h.declarations held found
    cases held <;> cases same
    exact asked
  · cases declaration with
    | relation => trivial
    | aggregate | count | existence | filter => exact ⟨step, member, asks⟩

theorem put (h : q.Follows calls begun) (member : step ∈ calls) (keeps : ¬step.setsTable)
    (ties : subquery.Ties) {fragment : Fragment}
    (gives : step.Gives subquery q.scope q.aggregates fragment) :
    (q.put fragment).Follows calls begun := by
  cases fragment with
  | table table => exact absurd rfl (gives.ne_table keeps table)
  | entry entry =>
    refine ⟨?_, fun rows found => ?_, h.declarations, h.deferrals⟩
    · cases entry <;> exact h.table
    · rcases Statement.mem_subqueries_put found with old | brings
      · exact h.subqueries rows old
      · obtain ⟨scope, link, base, known, asks, declares, made⟩ := gives.compiled _ rfl rows brings
        exact h.new ties ⟨step, member, asks, declares⟩ known made
  | declared declaration =>
    refine ⟨h.table, h.subqueries, fun held found => ?_, h.deferrals⟩
    rcases List.mem_append.1 found with old | here
    · exact h.declarations held old
    · exact List.mem_singleton.1 here ▸ h.declare member gives
  | output name label =>
    exact ⟨h.table, fun rows found => h.subqueries rows (Statement.subqueries_select .. ▸ found),
      h.declarations, h.deferrals⟩
  | _ => exact ⟨h.table, h.subqueries, h.declarations, h.deferrals⟩

theorem moves (h : q.Follows calls begun) (member : step ∈ calls) (keeps : ¬step.setsTable)
    (ties : subquery.Ties) (moves : q.Moves subquery step after) : after.Follows calls begun := by
  cases moves with
  | put gives => exact h.put member keeps ties gives
  | defer defers =>
    refine ⟨h.table, fun rows found => ?_, h.declarations, fun deferred found => ?_⟩
    · exact h.subqueries rows (Statement.subqueries_reserve .. ▸ found)
    · rcases List.mem_append.1 found with old | here
      · exact h.deferrals deferred old
      · exact List.mem_singleton.1 here ▸ ⟨step, member, defers.waited⟩
  | fill waits known compiled fills =>
    obtain ⟨table, _⟩ := Statement.source_of_fill fills
    refine ⟨table.trans h.table, fun rows found => ?_, h.declarations, h.deferrals⟩
    rcases Statement.mem_subqueries_fill fills found with old | brings
    · exact h.subqueries rows old
    · exact h.new ties (h.deferrals _ waits) known
        (RelatedExistence.rows_of_compile compiled brings)
  | drop fewer =>
    exact ⟨h.table, h.subqueries, h.declarations,
      fun deferred found => h.deferrals deferred (fewer found)⟩

theorem applyUsing (h : q.Follows calls begun) (ties : subquery.Ties) (step : Step) :
    (q.applyUsing subquery step).1.Follows (calls ++ [step]) begun := by
  have table : Refinement.tableAfter (calls ++ [step]) begun =
      (step.table? <|> q.statement.table) := by
    rw [Refinement.tableAfter_append, ← h.table]
    rfl
  by_cases sets : step.setsTable
  · rw [applyUsing_of_setsTable sets]
    cases set : step.table? with
    | none => exact h.next (by rw [table, set]; rfl) rfl rfl rfl
    | some held => exact h.next (by rw [table, set]; rfl) rfl rfl rfl
  · have begins : q.Follows (calls ++ [step]) begun :=
      h.next (by rw [table, Step.table?_eq_none sets]; rfl) rfl rfl rfl
    exact of_moves (fun follows moves => follows.moves (by simp) sets ties moves) begins

theorem foldl (h : q.Follows calls begun) (ties : subquery.Ties) (more : Refinement) :
    (more.foldl (fun q step => (q.applyUsing subquery step).1) q).Follows (calls ++ more)
      begun := by
  induction more generalizing q calls with
  | nil => simpa using h
  | cons step rest ih => simpa using ih (h.applyUsing ties step)

theorem of_bare (bare : q.Bare) (declarations : q.declarations = []) :
    q.Follows [] q.statement.table where
  table := rfl
  subqueries := by simp [bare.subqueries]
  declarations := by simp [declarations]
  deferrals := by simp [bare.deferrals]

theorem anchored (h : q.Follows calls begun) :
    ∀ rows ∈ q.statement.subqueries, rows.Anchored calls begun := by
  intro rows member
  obtain ⟨front, back, link, table, rfl, ⟨step, found, asks, declares⟩, held, tied⟩ :=
    h.subqueries rows member
  exact .behind found asks (fun _ => declares) held tied

theorem fillDeferred (h : q.Follows calls begun) (ties : subquery.Ties) {scope : Scope}
    {filled : Statement} (known : q.scope = .ok scope)
    (ok : Query.fillDeferred subquery scope q.deferrals q.statement = .ok filled) :
    filled.table = q.statement.table ∧ ∀ rows ∈ filled.subqueries, rows.Anchored calls begun := by
  let kept (s : Statement) : Prop :=
    s.table = q.statement.table ∧ ∀ rows ∈ s.subqueries, rows.Anchored calls begun
  refine Outcome.of_foldlM ok (P := kept) ⟨rfl, h.anchored⟩ ?_
  rintro deferred held state next ⟨table, anchored⟩ step
  obtain ⟨condition, compiled, fills⟩ := Outcome.exists_of_bind step
  obtain ⟨table', _⟩ := Statement.source_of_fill fills
  refine ⟨table'.trans table, fun rows member => ?_⟩
  rcases Statement.mem_subqueries_fill fills member with old | brings
  · exact anchored rows old
  · obtain ⟨front, back, link, outer, rfl, ⟨step, found, asks, declares⟩, held, tied⟩ :=
      h.new ties (h.deferrals deferred held) known
        (RelatedExistence.rows_of_compile compiled brings)
    exact .behind found asks (fun _ => declares) held tied

theorem assemble (h : q.Follows calls begun) (ties : subquery.Ties) {assembly : Assembly}
    (ok : q.assemble subquery = .ok assembly) :
    assembly.statement.table = q.statement.table ∧
      ∀ rows ∈ assembly.statement.subqueries, rows.Anchored calls begun := by
  obtain ⟨scope, parts, statement, known, compiled, filled, rfl⟩ := exists_of_assemble ok
  obtain ⟨table, before⟩ := h.fillDeferred ties known filled
  obtain ⟨outer, held, anchor⟩ := exists_table_of_scope known
  refine ⟨table, subqueries_of_assembled before
    (rows_of_parts h.declarations compiled fun declaration base rows plain asked made => ?_)⟩
  obtain ⟨step, member, asks⟩ : ∃ step ∈ calls, step.Asks declaration.link := by
    cases declaration with
    | relation => cases plain
    | _ => exact asked
  have tied := anchor ▸ ties scope declaration.link base rows made
  exact List.append_nil calls ▸ .behind member asks (fun more => absurd rfl more)
    (h.table ▸ held) tied

end Follows

end Query

/-- Level by level: the query inside follows the refinement of the link, begun over its target. -/
theorem ties_compileSubqueryWithin (levels : Nat) : (compileSubqueryWithin levels).Ties := by
  induction levels with
  | zero => exact fun _ _ _ _ made => nomatch made
  | succ levels ih =>
    intro scope link base rows made
    obtain ⟨child, assembly, refined, assembled, sourced, filtered, label, keys⟩ :=
      exists_of_compileSubqueryWithin made
    have begun : (Query.below scope.config (link.tableAs rows.label) (scope.depth + 1)
        true).Follows [] (link.tableAs rows.label) :=
      .of_bare (Query.Bare.below ..) rfl
    have follows : child.Follows (link.refinement.getD []) (link.tableAs rows.label) := by
      rw [Query.eq_foldl_of_refineUsing refined]
      exact begun.foldl ih _
    obtain ⟨table, anchored⟩ := follows.assemble ih assembled
    obtain ⟨held, _⟩ := Statement.exists_of_source sourced
    exact .mk keys (follows.table ▸ table ▸ held) fun inner member =>
      anchored inner (Statement.rows_of_filter filtered member)

theorem ties_compileSubquery : SubqueryCompiler.Ties compileSubquery :=
  fun _ link base rows => ties_compileSubqueryWithin _ _ link base rows

/-! ### Subqueries in scope -/

/-- The keys of a subquery are tied to names in scope. On the inside this is the label of its own
table, which is the target of a link that calls reach; on the outside it is the name of the table
`outer` right around it. -/
def Subquery.InScope (calls : Refinement) (outer : Table) (rows : Subquery Condition) : Prop :=
  ∃ link, Refinement.Reaches calls link ∧ rows.source.table = link.tableAs rows.label ∧
    rows.keys = link.keyMatches rows.label outer.knownAs

/-- Tables are set before existence conditions are declared, and in the refinements of subqueries
none is set. -/
structure Refinement.Rooted (calls : Refinement) : Prop where
  first : TableFirst calls
  inside : ∀ link, calls.Reaches link → ∀ step ∈ link.refinement.getD [], ¬step.setsTable

namespace Refinement

variable {calls front back : Refinement} {begun : Option Table}

theorem Reaches.trans {link inner : Link Refinement} (reaches : calls.Reaches link)
    (further : Reaches (link.refinement.getD []) inner) : calls.Reaches inner := by
  induction further with
  | here member asks => exact .inside reaches member asks
  | inside _ member asks ih => exact .inside ih member asks

theorem Rooted.refinement (rooted : calls.Rooted) {link : Link Refinement}
    (reaches : calls.Reaches link) : Rooted (link.refinement.getD []) where
  first := List.pairwise_of_forall_mem_list fun _ _ later found _ =>
    rooted.inside link reaches later found
  inside _ further := rooted.inside _ (reaches.trans further)

theorem Rooted.tableAfter_eq (rooted : Rooted (front ++ back)) {step : Step}
    (member : step ∈ front) (early : back ≠ [] → step.declaresExistence) :
    tableAfter (front ++ back) begun = tableAfter front begun := by
  rw [tableAfter_append]
  refine tableAfter_of_keeps fun later found => Step.table?_eq_none ?_
  exact (List.pairwise_append.1 rooted.first).2.2 step member later found
    (early (List.ne_nil_of_mem found))

end Refinement

/-- Where tables come first, a subquery is in scope, and those in it follow the refinement of a
link that is reached. -/
theorem Subquery.Anchored.inScope {calls : Refinement} {begun : Option Table} {outer : Table}
    {rows : Subquery Condition} (anchored : rows.Anchored calls begun) (rooted : calls.Rooted)
    (held : Refinement.tableAfter calls begun = some outer) :
    rows.InScope calls outer ∧ ∃ link, calls.Reaches link ∧
      Refinement.tableAfter (link.refinement.getD []) (link.tableAs rows.label) =
        some rows.source.table ∧
      ∀ inner ∈ rows.nested,
        inner.Anchored (link.refinement.getD []) (link.tableAs rows.label) := by
  obtain @⟨front, back, _, step, link, earlier, _, member, asks, early, then', tied⟩ := anchored
  obtain ⟨keys, table, nested⟩ := tied
  have reaches : Refinement.Reaches (front ++ back) link :=
    .here (List.mem_append_left _ member) asks
  have own : Refinement.tableAfter (link.refinement.getD []) (link.tableAs rows.label) =
      link.tableAs rows.label := Refinement.tableAfter_of_keeps fun step found =>
    Step.table?_eq_none (rooted.inside link reaches step found)
  obtain rfl : earlier = outer := by
    rw [rooted.tableAfter_eq member early, then'] at held
    exact Option.some.inj held
  exact ⟨⟨link, reaches, Option.some.inj (table.symm.trans own), keys⟩, link, reaches, table,
    nested⟩

theorem Statement.Nests.anchored {s : Statement} {source : Source} {calls : Refinement}
    {begun : Option Table} {around : List (Subquery Condition)} {rows : Subquery Condition}
    (nests : s.Nests around rows) (outermost : ∀ rows ∈ s.subqueries, rows.Anchored calls begun)
    (rooted : calls.Rooted) (held : Refinement.tableAfter calls begun = some source.table) :
    ∃ inner begun', Refinement.Rooted inner ∧ (∀ link, inner.Reaches link → calls.Reaches link) ∧
      rows.Anchored inner begun' ∧
      Refinement.tableAfter inner begun' = some (Subquery.parent source around).table := by
  induction nests with
  | outermost member => exact ⟨calls, begun, rooted, fun _ => id, outermost _ member, held⟩
  | inside _ member ih =>
    obtain ⟨inner, begun', rooted, within, anchored, held⟩ := ih
    obtain ⟨_, link, reaches, table, nested⟩ := anchored.inScope rooted held
    exact ⟨_, _, rooted.refinement reaches,
      fun _ further => within _ (reaches.trans further), nested _ member, table⟩

namespace Query

inductive Begun : Query → Prop
  | empty (config : Config) : Begun (empty config)
  | below (config : Config) (table : Table) (depth : Nat) (correlated : Bool) :
    Begun (below config table depth correlated)

theorem Begun.follows {start : Query} (begun : start.Begun) (calls : Refinement) :
    (calls.foldl (fun q step => (q.apply step).1) start).Follows calls start.statement.table := by
  have fresh : start.Follows [] start.statement.table := by
    cases begun with
    | empty config => exact .of_bare (Bare.empty config) rfl
    | below config table depth correlated => exact .of_bare (Bare.below ..) rfl
  exact fresh.foldl ties_compileSubquery calls

/-- Whatever is called, failing calls among it, every subquery is tied on the outside to the table
that the query around it had when it was compiled, and on the inside to the label that its own
table was begun with, on every level. Where no table is set behind an existence condition, and none
in the refinement of a subquery, these are the tables of the FROM clauses around it and in it. -/
theorem anchored_of_compile {start : Query} (begun : start.Begun) (calls : Refinement)
    {assembly : Assembly} {source : Source}
    (compiled : (calls.foldl (fun q step => (q.apply step).1) start).compile = .ok assembly)
    (sourced : assembly.statement.source = .ok source) :
    Refinement.tableAfter calls start.statement.table = some source.table ∧
    (∀ rows ∈ assembly.statement.subqueries, rows.Anchored calls start.statement.table) ∧
    (calls.Rooted → ∀ around rows, assembly.statement.Nests around rows →
      rows.InScope calls (Subquery.parent source around).table) := by
  have follows := begun.follows calls
  obtain ⟨table, anchored⟩ := follows.assemble ties_compileSubquery compiled
  have held := (follows.table.symm.trans table.symm).trans (Statement.exists_of_source sourced).1
  refine ⟨held, anchored, fun rooted around rows nests => ?_⟩
  obtain ⟨inner, begun', rooted, within, follows, held⟩ := nests.anchored anchored rooted held
  obtain ⟨⟨link, reaches, own, keys⟩, _⟩ := follows.inScope rooted held
  exact ⟨link, within link reaches, own, keys⟩

def settledCalls : Refinement := [
  .fromTable "people",
  .fromTable "categories as c",
  .openGroup .and false,
  .filterExists .and false {
    target := "categories as children", foreign := ["parent_id"], own := ["id"]
    refinement := some [
      .filterExistsNow .and {
        target := "categories as grandchildren", foreign := ["parent_id"], own := ["id"] }] },
  .closeGroup]

theorem rooted_settledCalls : settledCalls.Rooted := by
  refine ⟨by unfold TableFirst; decide, fun link reaches => ?_⟩
  have refinement : link.refinement = none ∨ link.refinement = some [.filterExistsNow .and {
      target := "categories as grandchildren", foreign := ["parent_id"], own := ["id"] }] := by
    induction reaches with
    | here member asks =>
      simp only [settledCalls, List.mem_cons, List.not_mem_nil, or_false] at member
      rcases member with rfl | rfl | rfl | rfl | rfl
      case inr.inr.inr.inl =>
        cases asks with
        | filterExists _ _ checked => exact .inr (Edge.link_spec checked).1
      all_goals cases asks
    | inside _ member asks ih =>
      rcases ih with plain | refined
      · simp [plain] at member
      · rw [refined] at member
        obtain rfl := List.mem_singleton.1 member
        cases asks with
        | filterExistsNow _ checked => exact .inl (Edge.link_spec checked).1
  rcases refinement with plain | refined
  · simp [plain]
  · simp [refined, Step.setsTable]

theorem settled_inScope : ∃ assembly source children grandchildren,
    (built {} settledCalls).compile = .ok assembly ∧ assembly.statement.source = .ok source ∧
    source.table.knownAs = "c" ∧ assembly.statement.Nests [children] grandchildren ∧
    (Query.empty {}).Begun ∧ settledCalls.Rooted ∧
    children.InScope settledCalls source.table ∧
    grandchildren.InScope settledCalls children.source.table := by
  have view : (built {} settledCalls).compile.toOption.map (fun assembly =>
      (assembly.statement.source.toOption, assembly.statement.subqueries.map fun children =>
        children.nested.map fun grandchildren => grandchildren.label)) =
      some (some { table := { name := "categories", label := some "c" } },
        [["grandchildren_s2"]]) := by decide +kernel
  obtain ⟨assembly, compiled, view⟩ := Option.map_eq_some_iff.1 view
  obtain ⟨sourced, inside⟩ := Prod.ext_iff.1 view
  obtain ⟨children, below, nested⟩ := List.map_eq_singleton_iff.1 inside
  obtain ⟨grandchildren, further, _⟩ := List.map_eq_singleton_iff.1 nested
  have outer : assembly.statement.Nests [] children :=
    .outermost (below ▸ List.mem_singleton_self _)
  have inner : assembly.statement.Nests [children] grandchildren :=
    .inside outer (further ▸ List.mem_singleton_self _)
  have compiled := Outcome.ok_of_toOption compiled
  have sourced := Outcome.ok_of_toOption sourced
  have begun : (Query.empty {}).Begun := .empty {}
  obtain ⟨_, _, inScope⟩ := anchored_of_compile begun settledCalls compiled sourced
  exact ⟨assembly, _, children, grandchildren, compiled, sourced, rfl, inner, begun,
    rooted_settledCalls, inScope rooted_settledCalls [] children outer,
    inScope rooted_settledCalls [children] grandchildren inner⟩

def strayingCalls : Refinement := [
  .fromTable "users",
  .filterExists .and false {
    target := "orders", foreign := ["user_id"], own := ["id"]
    refinement := some [.fromTable "payments"] },
  .filterExistsNow .and { target := "logs", foreign := ["user_id"], own := ["id"] },
  .fromTable "people"]

/-- On the inside the orders are tied to a label that no table has, and on the outside the logs are
tied to a table that is gone. -/
theorem straying_not_inScope : ∃ assembly source logs orders,
    (built {} strayingCalls).compile = .ok assembly ∧ assembly.statement.source = .ok source ∧
    assembly.statement.Nests [] logs ∧ assembly.statement.Nests [] orders ∧
    logs.keys = [{ inner := "logs_s1.user_id", outer := "users.id" }] ∧
    Source.resolve? (logs.source :: Subquery.scopes source []) "users" = none ∧
    orders.keys = [{ inner := "orders_s1.user_id", outer := "people.id" }] ∧
    Source.resolve? (orders.source :: Subquery.scopes source []) "orders_s1" = none ∧
    (∀ calls, ¬orders.InScope calls source.table) ∧
    (built {} strayingCalls).sql.toOption = some (
      "SELECT \"people\".* FROM \"people\" WHERE EXISTS (SELECT 1 FROM \"logs\" AS \"logs_s1\" " ++
      "WHERE \"logs_s1\".\"user_id\" = \"users\".\"id\") AND EXISTS (SELECT 1 FROM " ++
      "\"payments\" WHERE \"orders_s1\".\"user_id\" = \"people\".\"id\")") := by
  have view : (built {} strayingCalls).compile.toOption.map (fun assembly =>
      (assembly.statement.source.toOption, assembly.statement.subqueries.map fun rows =>
        (rows.keys, rows.source))) =
      some (some { table := { name := "people" } },
        [([{ inner := "logs_s1.user_id", outer := "users.id" }],
          { table := { name := "logs", label := some "logs_s1" } }),
         ([{ inner := "orders_s1.user_id", outer := "people.id" }],
          { table := { name := "payments" } })]) := by decide +kernel
  obtain ⟨assembly, compiled, view⟩ := Option.map_eq_some_iff.1 view
  obtain ⟨sourced, inside⟩ := Prod.ext_iff.1 view
  obtain ⟨logs, rest, both, first, others⟩ := List.map_eq_cons_iff.1 inside
  obtain ⟨orders, rfl, second⟩ := List.map_eq_singleton_iff.1 others
  obtain ⟨logKeys, logSource⟩ := Prod.ext_iff.1 first
  obtain ⟨orderKeys, orderSource⟩ := Prod.ext_iff.1 second
  dsimp only at sourced logKeys logSource orderKeys orderSource
  refine ⟨assembly, _, logs, orders, Outcome.ok_of_toOption compiled,
    Outcome.ok_of_toOption sourced, .outermost (by simp [both]), .outermost (by simp [both]),
    logKeys, ?_, orderKeys, ?_, ?_, by decide +kernel⟩
  · rw [logSource]
    decide
  · rw [orderSource]
    decide
  · rintro calls ⟨link, _, own, _⟩
    rw [orderSource] at own
    cases congrArg Table.label own

end Query

end RelationQuery
