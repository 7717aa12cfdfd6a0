import RelationQuery.Proofs.Failure
import RelationQuery.Proofs.Grounded

/-! Queries that can always be compiled. Main statement: where calls went through and their
relations are not refined, only a group that is still open keeps a query from its text. -/
namespace RelationQuery

namespace Clause

theorem settled_of_slots {clause : Clause Place} (free : clause.slots = []) : clause.Settled := by
  intro entry member connective slot same
  have reserved : slot ∈ clause.slots := List.mem_filterMap.2 ⟨entry, member, by rw [same]; rfl⟩
  rw [free] at reserved
  cases reserved

end Clause

namespace Query

variable {subquery : SubqueryCompiler} {q after : Query}

/-! ### No place stays reserved outside of groups -/

theorem perm_slots_of_settle {ready : List Deferred}
    (h : q.settle subquery ready = (after, none)) :
    q.statement.conditions.slots.Perm
      (ready.map Deferred.slot ++ after.statement.conditions.slots) := by
  induction ready generalizing q with
  | nil =>
    cases h
    exact .refl _
  | cons deferred rest ih =>
    unfold settle at h
    dsimp only at h
    split at h
    · next statement filled =>
      obtain ⟨_, _, filled⟩ := Outcome.exists_of_bind filled
      obtain ⟨_, _, filled⟩ := Outcome.exists_of_bind filled
      obtain ⟨_, found, rfl⟩ := Statement.exists_of_fill filled
      exact (Clause.perm_slots_of_fill? found).trans ((ih h).cons _)
    · cases h

theorem Waiting.closeGroup (h : q.Waiting) (closes : q.closeGroup subquery = (after, none)) :
    after.Waiting := by
  have within := within_of_closeGroup h.within closes
  have opened := (of_closeGroup closes).1
  rcases settled : q.outer.settle subquery q.inner with ⟨next, _ | error⟩
  · obtain ⟨_, conditions, rfl⟩ := of_settle settled
    rw [closeGroup_of_settle opened settled] at closes
    cases closes
    refine ⟨?_, fun deferred member => h.fresh deferred (List.mem_filter.1 member).1, within⟩
    have taken : q.statement.conditions.slots.Perm
        (q.inner.map Deferred.slot ++ conditions.slots) := perm_slots_of_settle settled
    have parts := q.perm_inner_outer.map Deferred.slot
    rw [List.map_append] at parts
    change (Clause.slots (Clause.closeGroup conditions)).Perm _
    rw [Clause.slots_closeGroup]
    exact (List.perm_append_left_iff _).1 (taken.symm.trans (h.slots.trans parts.symm))
  · rw [closeGroup_eq opened, settled] at closes
    cases closes

theorem Waiting.advances (h : q.Waiting) {step : Step} {prompt : Bool}
    (next : q.Advances subquery prompt step after) : after.Waiting := by
  cases next with
  | put _ opens => exact h.put opens
  | defer _ opened => exact h.defer opened _
  | closeGroup closes => exact h.closeGroup closes

/-! ### Relations without a refinement -/

structure Unrefined (config : Config) (q : Query) : Prop where
  configured : q.config = config
  depth : q.depth = 0
  plain : q.correlated = false
  links : ∀ declaration ∈ q.declarations, declaration.link.refinement = none

theorem Unrefined.put {config : Config} (h : q.Unrefined config) {fragment : Fragment}
    (bare : ∀ declaration, fragment = .declared declaration →
      declaration.link.refinement = none) : (q.put fragment).Unrefined config := by
  have parts : (q.put fragment).config = q.config ∧ (q.put fragment).depth = q.depth ∧
      (q.put fragment).correlated = q.correlated := by
    cases fragment with
    | entry entry => cases entry <;> exact ⟨rfl, rfl, rfl⟩
    | _ => exact ⟨rfl, rfl, rfl⟩
  obtain ⟨config, depth, correlated⟩ := parts
  refine ⟨config.trans h.configured, depth.trans h.depth, correlated.trans h.plain, ?_⟩
  cases fragment with
  | declared declaration =>
    intro held member
    rcases List.mem_append.1 member with old | new
    · exact h.links held old
    · exact List.mem_singleton.1 new ▸ bare declaration rfl
  | entry entry => cases entry <;> exact h.links
  | _ => exact h.links

theorem Unrefined.aggregate {config : Config} (h : q.Unrefined config)
    {aggregate : RelatedAggregate} (member : aggregate ∈ q.aggregates) :
    aggregate.link.refinement = none := by
  obtain ⟨declaration, held, same⟩ := List.mem_filterMap.1 member
  cases declaration <;> cases same
  exact h.links _ held

theorem Unrefined.moves {config : Config} {step : Step} (call : step.isCall)
    (bare : ∀ edge ∈ step.edge?, edge.refinement = none) (h : q.Unrefined config)
    (moves : q.Moves subquery step after) : after.Unrefined config := by
  cases moves with
  | put gives =>
    refine h.put fun declaration same => ?_
    subst same
    cases gives with
    | load _ checked | aggregate _ _ _ checked | filterCount _ _ _ _ checked
    | filterExists _ _ checked => exact (Edge.link_spec checked).1.trans (bare _ rfl)
    | filterAggregate _ _ _ _ member => exact h.aggregate member
    | attempt => cases call
  | defer | fill | drop => exact ⟨h.configured, h.depth, h.plain, h.links⟩

end Query

theorem exists_compileSubquery {scope : Scope} {link : Link Refinement}
    (room : scope.depth < scope.config.maxDepth) (bare : link.refinement = none) (base : String) :
    ∃ rows, compileSubquery scope link base = .ok rows := by
  obtain ⟨levels, left⟩ := Nat.exists_eq_succ_of_ne_zero (Nat.sub_ne_zero_of_lt room)
  unfold compileSubquery
  rw [left, compileSubqueryWithin, bare]
  exact ⟨_, rfl⟩

namespace Query

variable {q : Query} {subquery : SubqueryCompiler}

theorem exists_parts {scope : Scope} (formed : q.WellFormed)
    (room : scope.depth < scope.config.maxDepth)
    (bare : ∀ declaration ∈ q.declarations, declaration.link.refinement = none) :
    ∃ parts, q.parts compileSubquery scope = .ok parts := by
  refine exists_parts_of_asks formed fun ask member => ?_
  obtain ⟨declaration, declared, asks⟩ := List.mem_filterMap.1 member
  have unrefined := bare declaration declared
  rw [← Declaration.link_of_ask? asks] at unrefined
  exact exists_compileSubquery room unrefined ask.2

theorem slots_declared (parts : Parts) (q : Query) : (q.declared parts).slots = [] := by
  have items (connectives : List Connective) (conditions : List Condition) :
      Clause.slots (entries connectives conditions) = [] := by
    unfold entries Clause.slots
    rw [← List.map_uncurry_zip_eq_zipWith, List.filterMap_map, List.filterMap_eq_nil_iff]
    exact fun _ _ => rfl
  simp [declared, items]

theorem compile_eq_of_closed {table : Table} (waiting : q.Waiting)
    (closed : q.statement.openGroups = 0) (known : q.statement.table = some table)
    (loads : q.checkRelations = .ok ()) :
    q.compile = q.parts compileSubquery ⟨q.config, q.depth, table.knownAs⟩ >>= fun parts =>
      .ok (q.assembled table.knownAs parts) := by
  rw [compile, assemble_eq closed (waiting.idle closed).1, scope_of_table known, Outcome.ok_bind,
    loads]
  rfl

theorem exists_filter_of_closed (waiting : q.Waiting) (closed : q.statement.openGroups = 0)
    (anchor : String) (parts : Parts) :
    ∃ clause, (q.assembled anchor parts).statement.filter = .ok clause := by
  have settled : (q.statement.conditions ++ q.declared parts).settled?.isSome := by
    refine Clause.isSome_settled?_iff.2 (Clause.settled_of_slots ?_)
    rw [Clause.slots_append, (waiting.idle closed).2, slots_declared]
    rfl
  obtain ⟨clause, settled⟩ := Option.isSome_iff_exists.1 settled
  refine ⟨clause, ?_⟩
  unfold Statement.filter Query.assembled
  simp [closed, settled]

theorem exists_sql_assembled {table : Table} (waiting : q.Waiting)
    (closed : q.statement.openGroups = 0) (known : q.statement.table = some table)
    (parts : Parts) : ∃ text, (q.assembled table.knownAs parts).statement.sql = .ok text := by
  obtain ⟨clause, filter⟩ := exists_filter_of_closed waiting closed table.knownAs parts
  have sourced : (q.assembled table.knownAs parts).statement.requireTable = .ok table :=
    Statement.requireTable_ok_iff.2 known
  refine (Statement.exists_sql_iff _).2 ?_
  rw [Statement.ready, sourced, filter]
  rfl

theorem exists_sql_of_closed {config : Config} (h : q.Unrefined config) (waiting : q.Waiting)
    (formed : q.WellFormed) (room : 1 ≤ config.maxDepth) (tabled : q.statement.table.isSome)
    (closed : q.statement.openGroups = 0) : ∃ text, q.sql = .ok text := by
  obtain ⟨table, known⟩ := Option.isSome_iff_exists.1 tabled
  have room : q.depth < q.config.maxDepth := by
    rw [h.depth, h.configured]
    exact room
  obtain ⟨parts, compiled⟩ : ∃ parts,
      q.parts compileSubquery ⟨q.config, q.depth, table.knownAs⟩ = .ok parts :=
    exists_parts formed room h.links
  rw [sql, compile_eq_of_closed waiting closed known (checkRelations_of_plain h.plain), compiled]
  exact exists_sql_assembled waiting closed known parts

theorem sql_of_open (opened : q.statement.openGroups ≠ 0) : q.sql = .error (.group .leftOpen) := by
  unfold sql compile assemble
  rw [if_pos (Nat.pos_of_ne_zero opened)]
  rfl

theorem Waiting.refineUsing {steps : Refinement} {after : Query} (h : q.Waiting)
    (calls : ∀ step ∈ steps, step.isCall) (runs : q.refineUsing subquery steps = .ok after) :
    after.Waiting := by
  induction steps generalizing q with
  | nil =>
    cases runs
    exact h
  | cons step rest ih =>
    obtain ⟨call, others⟩ := List.forall_mem_cons.1 calls
    obtain ⟨next, went, runs⟩ := exists_of_refineUsing runs
    rw [← applyPromptly_false] at went
    exact ih (h.advances (advances_of_applyPromptly call went)) others runs

theorem waiting_empty (config : Config) : (empty config).Waiting :=
  ⟨.refl _, fun _ => (nomatch ·), fun _ => (nomatch ·)⟩

theorem waiting_below (config : Config) (table : Table) (depth : Nat) (correlated : Bool) :
    (below config table depth correlated).Waiting :=
  ⟨.refl _, fun _ => (nomatch ·), fun _ => (nomatch ·)⟩

theorem waiting_of_refine {config : Config} {start q : Query} {steps : List Step}
    (calls : ∀ step ∈ steps, step.isCall)
    (bare : ∀ step ∈ steps, ∀ edge ∈ step.edge?, edge.refinement = none)
    (waiting : start.Waiting) (unrefined : start.Unrefined config)
    (runs : start.refine steps = .ok q) : q.Waiting ∧ q.Unrefined config := by
  refine ⟨waiting.refineUsing calls runs, ?_⟩
  rw [eq_foldl_of_refineUsing runs]
  exact List.foldlRecOn steps _ unrefined fun _ held step member =>
    of_moves (fun h => h.moves (calls step member) (bare step member)) held

/-- A run of calls that went through, over a table and with relations taken as they are, has a text
just where it has closed its groups: an open group is the only thing that can be wrong with it. What
its aggregates range over was checked when they were declared, and reading it again cannot fail. -/
theorem exists_sql_iff_closed {config : Config} {steps : List Step} {q : Query}
    (room : 1 ≤ config.maxDepth) (calls : ∀ step ∈ steps, step.isCall)
    (bare : ∀ step ∈ steps, ∀ edge ∈ step.edge?, edge.refinement = none)
    (runs : (empty config).refine steps = .ok q) (tabled : q.statement.table.isSome) :
    ((∃ text, q.sql = .ok text) ↔ q.statement.openGroups = 0) ∧
      (q.statement.openGroups ≠ 0 → q.sql = .error (.group .leftOpen)) ∧
      ∀ aggregate ∈ q.aggregates, aggregate.measure.Valid ∧
        ∃ measure, aggregate.measure.compile = .ok measure := by
  obtain ⟨waiting, unrefined⟩ :=
    waiting_of_refine calls bare (waiting_empty config) ⟨rfl, rfl, rfl, fun _ => (nomatch ·)⟩ runs
  have formed : q.WellFormed := (WellFormed.empty config).refineUsing runs
  refine ⟨⟨fun ⟨text, made⟩ => ?_, exists_sql_of_closed unrefined waiting formed room tabled⟩,
    sql_of_open, fun aggregate member =>
      ⟨formed.measures aggregate member, formed.exists_compile member⟩⟩
  by_contra opened
  rw [sql_of_open opened] at made
  cases made

def declaringCalls : List Step :=
  let orders : Edge Refinement := { target := "orders", foreign := ["user_id"], own := ["id"] }
  [.fromTable "users as u",
   .load .many orders,
   .aggregate .sum orders "price * quantity",
   .aggregate .calc { orders with target := "orders as late" } "MAX(CASE WHEN days THEN 1 END)",
   .filterCount .and orders ">=" 2,
   .openGroup .or true,
   .filterExists .and true orders,
   .filterExistsNow .or orders,
   .closeGroup,
   .filterAggregate .and "orders_sum >" (.text "9"),
   .orderByAggregate "late" .desc]

theorem declaring_exists_sql : ∃ q,
    (empty { maxDepth := 1 }).refine declaringCalls = .ok q ∧ ∃ text, q.sql = .ok text := by
  have ends : ((empty { maxDepth := 1 }).refine declaringCalls).toOption.map (fun q =>
      (q.statement.openGroups, q.statement.table.isSome)) = some (0, true) := by decide +kernel
  cases runs : (empty { maxDepth := 1 }).refine declaringCalls with
  | error error =>
    rw [runs] at ends
    cases ends
  | ok q =>
  rw [runs] at ends
  obtain ⟨closed, tabled⟩ := Prod.ext_iff.1 (Option.some.inj ends)
  have bare : ∀ step ∈ declaringCalls, ∀ edge ∈ step.edge?, edge.refinement = none := by
    simp [declaringCalls, Step.edge?]
  exact ⟨q, rfl, (exists_sql_iff_closed (by decide) (by decide) bare runs tabled).1.2 closed⟩

end Query

end RelationQuery
