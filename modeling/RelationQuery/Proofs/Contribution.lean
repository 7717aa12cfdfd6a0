import RelationQuery.Proofs.Outline
import RelationQuery.Proofs.Prompt

/-! A query as the sum of what its calls add. Main statement: a run of calls that closes its groups
leaves the fragments of the calls, each made without the others. -/
namespace RelationQuery

/-- What the calls of a run add, one after the other. All that passes from one to the next are the
aggregates declared so far and the number of open groups. -/
def contributions (subquery : SubqueryCompiler) (scope : Scope) :
    List RelatedAggregate → Nat → List Step → Except Error (List Fragment)
  | _, _, [] => .ok []
  | aggregates, openGroups, step :: rest => do
    let fragment ← step.fragment subquery (.ok scope) aggregates openGroups
    let more ← contributions subquery scope (aggregates ++ fragment.aggregate?.toList)
      (step.groups openGroups) rest
    return fragment :: more

namespace Query

variable {subquery : SubqueryCompiler} {q after : Query}

theorem applyPromptly_eq_put {step : Step} (call : step.isCall) (idle : q.deferrals = []) :
    q.applyPromptly subquery true step = q.orUnchanged (q.put <$> q.fragment subquery step) := by
  by_cases closes : step = .closeGroup
  · subst closes
    by_cases opened : q.statement.openGroups = 0
    · have fragment : q.fragment subquery .closeGroup = .error (.group .noneOpen) := if_pos opened
      rw [fragment]
      exact closeGroup_of_closed opened
    · have fragment : q.fragment subquery .closeGroup = .ok (.entry .closing) := if_neg opened
      have inner : q.inner = [] := by simp [inner, idle]
      have outer : q.outer = q := by
        unfold outer
        rw [idle, List.filter_nil, ← idle]
      rw [fragment]
      have closes : q.closeGroup subquery = (q.put (.entry .closing), none) := by
        rw [closeGroup_eq opened, inner, outer]
        simp only [settle, Statement.closeGroup, opened, if_false]
        rfl
      exact closes
  · refine (applyPromptly_eq true call closes).resolve_right ?_
    rintro ⟨_, _, _, _, waits, _⟩
    cases waits

theorem aggregates_put (fragment : Fragment) : (q.put fragment).aggregates =
    q.aggregates ++ fragment.aggregate?.toList := by
  cases fragment with
  | declared declaration =>
    simp only [aggregates, put, declare, List.filterMap_append]
    cases declaration <;> rfl
  | _ => exact (List.append_nil _).symm

/-- A run in which nothing waits puts the contributions of its calls one after the other. -/
theorem contributions_of_refinePromptly {steps : List Step} {scope : Scope}
    (calls : ∀ step ∈ steps, step.isCall) (keeps : ∀ step ∈ steps, ¬step.setsTable)
    (known : q.scope = .ok scope) (idle : q.deferrals = [])
    (runs : q.refinePromptly subquery (steps.map (·, true)) = .ok after) :
    ∃ fragments, contributions subquery scope q.aggregates q.statement.openGroups steps =
      .ok fragments ∧ after = fragments.foldl put q := by
  induction steps generalizing q with
  | nil =>
    cases runs
    exact ⟨[], rfl, rfl⟩
  | cons step rest ih =>
    have call := calls step List.mem_cons_self
    obtain ⟨next, went, runs⟩ := exists_of_refinePromptly runs
    rw [applyPromptly_eq_put call idle] at went
    obtain ⟨fragment, gives, rfl⟩ := Outcome.exists_of_map (exists_of_orUnchanged went)
    have given := Step.gives_of_fragment gives
    obtain ⟨fragments, later, rfl⟩ := ih
      (fun step member => calls step (List.mem_cons_of_mem _ member))
      (fun step member => keeps step (List.mem_cons_of_mem _ member))
      ((scope_put (given.ne_table (keeps step List.mem_cons_self))).trans known)
      ((deferrals_put fragment).trans idle) runs
    refine ⟨fragment :: fragments, ?_, rfl⟩
    rw [aggregates_put, openGroups_put given call] at later
    have here : step.fragment subquery (.ok scope) q.aggregates q.statement.openGroups =
        .ok fragment := known ▸ gives
    rw [contributions, here, Outcome.ok_bind, later]
    rfl

theorem put_eq (q : Query) (fragment : Fragment) : q.put fragment = { q with
    statement := { q.statement with
      table := (q.put fragment).statement.table
      outputs := q.statement.outputs ++ fragment.output?.toList
      joins := q.statement.joins ++ fragment.join?.toList
      conditions := (q.put fragment).statement.conditions
      openGroups := (q.put fragment).statement.openGroups
      ordering := q.statement.ordering ++ fragment.ordering?.toList
      limit := fragment.limit?.or q.statement.limit
      offset := fragment.offset?.or q.statement.offset }
    declarations := q.declarations ++ fragment.declaration?.toList
    wantsTotal := (q.put fragment).wantsTotal } := by
  cases fragment with
  | entry entry =>
    cases entry <;> simp [put, onStatement, Fragment.output?, Fragment.join?, Fragment.ordering?,
      Fragment.limit?, Fragment.offset?, Fragment.declaration?, Statement.put,
      Statement.addCondition, Statement.openGroup]
  | _ =>
    simp [put, onStatement, Fragment.output?, Fragment.join?, Fragment.ordering?,
      Fragment.limit?, Fragment.offset?, Fragment.declaration?, Statement.fromTable,
      Statement.select, Statement.addJoin, Statement.orderBy, limit, offset, countAll, declare]

/-! What a list of fragments leaves of each part of a query. -/

theorem collect_foldl_put {β : Type} (read : Query → List β) (pick : Fragment → Option β)
    (one : ∀ q fragment, read (put q fragment) = read q ++ (pick fragment).toList)
    (fragments : List Fragment) (q : Query) :
    read (fragments.foldl put q) = read q ++ fragments.filterMap pick := by
  induction fragments generalizing q with
  | nil => simp
  | cons fragment rest ih =>
    rw [List.foldl_cons, ih, one, List.append_assoc, List.filterMap_cons]
    cases pick fragment <;> rfl

theorem latest_foldl_put {β : Type} (read : Query → Option β) (pick : Fragment → Option β)
    (one : ∀ q fragment, read (put q fragment) = (pick fragment).or (read q))
    (fragments : List Fragment) (q : Query) :
    read (fragments.foldl put q) = (fragments.filterMap pick).getLast?.or (read q) := by
  induction fragments generalizing q with
  | nil => rfl
  | cons fragment rest ih =>
    rw [List.foldl_cons, ih, one, List.filterMap_cons]
    cases pick fragment with
    | none => rfl
    | some held =>
      rw [List.getLast?_cons]
      cases (rest.filterMap pick).getLast? <;> rfl

theorem keep_foldl_put {β : Type} (read : Query → β) {fragments : List Fragment}
    (one : ∀ fragment ∈ fragments, ∀ q, read (put q fragment) = read q) (q : Query) :
    read (fragments.foldl put q) = read q := by
  induction fragments generalizing q with
  | nil => rfl
  | cons fragment rest ih =>
    rw [List.foldl_cons, ih fun fragment member => one fragment (List.mem_cons_of_mem _ member)]
    exact one fragment List.mem_cons_self q

def conditionsOnly (q : Query) : Statement :=
  { dialect := q.config.dialect
    conditions := q.statement.conditions
    openGroups := q.statement.openGroups }

theorem conditionsOnly_foldl_put (fragments : List Fragment) (q : Query) :
    conditionsOnly (fragments.foldl put q) =
      (fragments.filterMap Fragment.entry?).foldl Statement.put (conditionsOnly q) := by
  induction fragments generalizing q with
  | nil => rfl
  | cons fragment rest ih =>
    rw [List.foldl_cons, ih, List.filterMap_cons]
    cases fragment with
    | entry entry => cases entry <;> rfl
    | _ => rfl

end Query

theorem Statement.foldlM_enter_of_nesting {entries : Clause Condition} {s : Statement}
    {depth : Nat} (h : Clause.nesting s.openGroups entries = some depth) :
    entries.foldlM enter s = .ok (entries.foldl put s) := by
  induction entries generalizing s with
  | nil => rfl
  | cons entry rest ih =>
    rw [Clause.nesting, List.foldlM_cons] at h
    obtain ⟨opened, here, h⟩ := Option.bind_eq_some_iff.1 h
    have enters : s.enter entry = .ok (s.put entry) ∧ (s.put entry).openGroups = opened := by
      cases entry with
      | item | opening =>
        cases here
        exact ⟨rfl, rfl⟩
      | closing =>
        rw [Entry.nest] at here
        split at here
        · cases here
        · next opened =>
          cases here
          exact ⟨if_neg opened, rfl⟩
    rw [List.foldlM_cons, enters.1, Outcome.ok_bind, List.foldl_cons]
    exact ih (enters.2 ▸ h)

theorem ne_table_of_contributions {subquery : SubqueryCompiler} {scope : Scope}
    {steps : List Step} (keeps : ∀ step ∈ steps, ¬step.setsTable)
    {aggregates : List RelatedAggregate} {openGroups : Nat} {fragments : List Fragment}
    (h : contributions subquery scope aggregates openGroups steps = .ok fragments) :
    ∀ fragment ∈ fragments, ∀ table, fragment ≠ .table table := by
  induction steps generalizing aggregates openGroups fragments with
  | nil =>
    cases h
    intro fragment member
    cases member
  | cons step rest ih =>
    rw [contributions] at h
    obtain ⟨fragment, here, h⟩ := Outcome.exists_of_bind h
    obtain ⟨more, later, h⟩ := Outcome.exists_of_bind h
    cases h
    have given := Step.gives_of_fragment here
    have first := given.ne_table (keeps step List.mem_cons_self)
    intro other member
    rcases List.mem_cons.1 member with rfl | member
    · exact first
    · exact ih (fun step member => keeps step (List.mem_cons_of_mem _ member)) later other member

theorem nesting_of_fragment {subquery : SubqueryCompiler} {scope : Except Error Scope}
    {aggregates : List RelatedAggregate} {openGroups : Nat} {step : Step} {fragment : Fragment}
    (call : step.isCall)
    (h : step.fragment subquery scope aggregates openGroups = .ok fragment) :
    Clause.nesting openGroups fragment.entry?.toList = some (step.groups openGroups) := by
  by_cases closes : step = .closeGroup
  · subst closes
    unfold Step.fragment at h
    split at h
    · cases h
    · next opened =>
      cases h
      simp [Fragment.entry?, Clause.nesting, Entry.nest, opened, Step.groups]
  · cases Step.gives_of_fragment h with
    | closeGroup => exact absurd rfl closes
    | attempt => cases call
    | _ => rfl

theorem nesting_of_contributions {subquery : SubqueryCompiler} {scope : Scope} {steps : List Step}
    (calls : ∀ step ∈ steps, step.isCall) {aggregates : List RelatedAggregate} {openGroups : Nat}
    {fragments : List Fragment}
    (h : contributions subquery scope aggregates openGroups steps = .ok fragments) :
    Clause.nesting openGroups (fragments.filterMap Fragment.entry?) =
      some (steps.foldl (fun depth step => step.groups depth) openGroups) := by
  induction steps generalizing aggregates openGroups fragments with
  | nil =>
    cases h
    rfl
  | cons step rest ih =>
    rw [contributions] at h
    obtain ⟨fragment, here, h⟩ := Outcome.exists_of_bind h
    obtain ⟨more, later, h⟩ := Outcome.exists_of_bind h
    cases h
    have here := nesting_of_fragment (calls step List.mem_cons_self) here
    have later := ih (fun step member => calls step (List.mem_cons_of_mem _ member)) later
    have split : (fragment :: more).filterMap Fragment.entry? =
        fragment.entry?.toList ++ more.filterMap Fragment.entry? := by
      rw [List.filterMap_cons]
      cases fragment.entry? <;> rfl
    rw [split, Clause.nesting_append, here]
    exact later

namespace Query

/-- The query that calls over a table come to: of each kind what they add in order, and of the
limits and offsets the last. -/
def summed (config : Config) (table : Table) (fragments : List Fragment)
    (outline : Outline Condition) (wantsTotal : Bool) : Query :=
  { config
    statement := {
      dialect := config.dialect
      table := some table
      outputs := fragments.filterMap Fragment.output?
      joins := fragments.filterMap Fragment.join?
      conditions := outline.clause.map (Entry.map .ready)
      ordering := fragments.filterMap Fragment.ordering?
      limit := (fragments.filterMap Fragment.limit?).getLast?
      offset := (fragments.filterMap Fragment.offset?).getLast? }
    declarations := fragments.filterMap Fragment.declaration?
    wantsTotal }

theorem foldl_put_eq_summed {config : Config} {table : Table} {fragments : List Fragment}
    {outline : Outline Condition}
    (described : outline.calls = fragments.filterMap Fragment.entry?)
    (keeps : ∀ fragment ∈ fragments, ∀ table, fragment ≠ .table table) :
    ∃ wantsTotal, fragments.foldl put ((empty config).put (.table table)) =
      summed config table fragments outline wantsTotal := by
  let start := (empty config).put (.table table)
  have placed : conditionsOnly (fragments.foldl put start) =
      { dialect := config.dialect, conditions := outline.clause.map (Entry.map .ready) } := by
    have entered := outline.foldlM_enter (conditionsOnly start)
    rw [Statement.foldlM_enter_of_nesting (Statement.nesting_of_enter entered)] at entered
    rw [conditionsOnly_foldl_put, ← described, Except.ok.inj entered]
    rfl
  have outputs := collect_foldl_put (·.statement.outputs) _
    (fun q fragment => congrArg (·.statement.outputs) (put_eq q fragment)) fragments start
  have joins := collect_foldl_put (·.statement.joins) _
    (fun q fragment => congrArg (·.statement.joins) (put_eq q fragment)) fragments start
  have ordering := collect_foldl_put (·.statement.ordering) _
    (fun q fragment => congrArg (·.statement.ordering) (put_eq q fragment)) fragments start
  have declarations := collect_foldl_put (·.declarations) _
    (fun q fragment => congrArg (·.declarations) (put_eq q fragment)) fragments start
  have limit := latest_foldl_put (·.statement.limit) _
    (fun q fragment => congrArg (·.statement.limit) (put_eq q fragment)) fragments start
  have offset := latest_foldl_put (·.statement.offset) _
    (fun q fragment => congrArg (·.statement.offset) (put_eq q fragment)) fragments start
  have fixed := keep_foldl_put (fun q : Query => (q.config, q.statement.dialect, q.statement.extras,
      q.statement.slots, q.deferrals, q.depth, q.correlated))
    (fun fragment (_ : fragment ∈ fragments) q => by rw [put_eq q fragment]) start
  have table := keep_foldl_put (·.statement.table) (fun fragment member q => by
    cases fragment with
    | table other => exact absurd rfl (keeps _ member other)
    | entry entry => cases entry <;> rfl
    | _ => rfl) start
  refine ⟨(fragments.foldl put start).wantsTotal, ?_⟩
  change fragments.foldl put start = _
  generalize fragments.foldl put start = q at *
  obtain ⟨config, dialect, extras, slots, idle, depth, correlated⟩ : _ ∧ _ ∧ _ ∧ _ ∧ _ ∧ _ ∧ _ := by
    simpa only [Prod.mk.injEq] using fixed
  have conditions := congrArg Statement.conditions placed
  have openGroups := congrArg Statement.openGroups placed
  rcases q with ⟨_, ⟨⟩⟩
  simp only [summed, Query.mk.injEq, Statement.mk.injEq]
  exact ⟨config, ⟨dialect, table, outputs, extras, joins, conditions, openGroups, slots, ordering,
    limit.trans Option.or_none, offset.trans Option.or_none⟩, declarations, idle, depth, correlated,
    trivial⟩

end Query

end RelationQuery
