import Mathlib.Data.List.Forall2
import RelationQuery.Proofs.Finalization

/-! The order of calls of different kinds. Main statement: the statement of a query is put together
from what its calls add, so that calls of different kinds may come in any order. -/
namespace RelationQuery

/-- What a call is about, as far as the text of a query goes. Conditions put in place and the
groups around them are of one kind, `content`. -/
inductive CallKind where
  | select
  | join
  | content
  | ordering
  | paging
  | relation
  | aggregate
  | count
  | existence
  | filter
  deriving DecidableEq

/-- The kind of a call where `openGroups` groups are open. The table, which is set once, and asking
for the number of rows are of none. -/
def Step.kind? (openGroups : Nat) : Step → Option CallKind
  | .fromTable _ | .countAll | .fail _ | .attempt _ => none
  | .select _ => some .select
  | .join .. => some .join
  | .filter .. | .filterIn .. | .openGroup .. | .closeGroup | .filterExistsNow .. => some .content
  | .filterExists .. => some (if openGroups = 0 then .existence else .content)
  | .orderBy .. | .orderByAggregate .. => some .ordering
  | .limit _ | .offset _ => some .paging
  | .load .. => some .relation
  | .aggregate .. => some .aggregate
  | .filterCount .. => some .count
  | .filterAggregate .. => some .filter

def Fragment.kind? : Fragment → Option CallKind
  | .table _ | .total => none
  | .output .. => some .select
  | .join _ => some .join
  | .entry _ => some .content
  | .ordering .. => some .ordering
  | .limit _ | .offset _ => some .paging
  | .declared (.relation _) => some .relation
  | .declared (.aggregate _) => some .aggregate
  | .declared (.count _) => some .count
  | .declared (.existence _) => some .existence
  | .declared (.filter _) => some .filter

def ofKind (kind : CallKind) : Nat → List Step → List Step
  | _, [] => []
  | openGroups, step :: rest =>
    if step.kind? openGroups = some kind then
      step :: ofKind kind (step.groups openGroups) rest
    else ofKind kind (step.groups openGroups) rest

section Fragments

variable {subquery : SubqueryCompiler} {scope : Scope} {aggregates others : List RelatedAggregate}
  {openGroups groups : Nat} {step : Step} {fragment other : Fragment}

theorem kind_of_fragment (call : step.isCall)
    (h : step.fragment subquery (.ok scope) aggregates openGroups = .ok fragment) :
    fragment.kind? = step.kind? openGroups := by
  by_cases existence : ∃ connective negated edge, step = .filterExists connective negated edge
  · obtain ⟨connective, negated, edge, rfl⟩ := existence
    obtain ⟨link, _, h⟩ := Outcome.exists_of_bind h
    dsimp only at h
    split at h
    · next closed =>
      cases h
      simp [Fragment.kind?, Step.kind?, closed]
    · next opened =>
      obtain ⟨_, _, h⟩ := Outcome.exists_of_bind h
      obtain ⟨condition, _, h⟩ := Outcome.exists_of_bind h
      cases h
      simp [Fragment.kind?, Step.kind?, opened]
  · cases Step.gives_of_fragment h with
    | filterExists | filterExistsHere => exact absurd ⟨_, _, _, rfl⟩ existence
    | attempt => cases call
    | _ => rfl

/-- A call adds the same wherever it stands among calls of other kinds, also a condition on an
aggregate if the aggregates declared before it begin the same list. -/
theorem fragment_unique (call : step.isCall)
    (h : step.fragment subquery (.ok scope) aggregates openGroups = .ok fragment)
    (h' : step.fragment subquery (.ok scope) others groups = .ok other)
    (same : step.kind? openGroups = step.kind? groups)
    (held : step.kind? openGroups = some .filter → ∃ all, aggregates <+: all ∧ others <+: all) :
    fragment = other := by
  cases step with
  | attempt => cases call
  | closeGroup | orderByAggregate =>
    cases Step.gives_of_fragment h
    cases Step.gives_of_fragment h'
    rfl
  | aggregate kind edge column =>
    obtain ⟨link, checked, h⟩ := Outcome.exists_of_bind h
    obtain ⟨operand, parsed, h⟩ := Outcome.exists_of_bind h
    obtain ⟨_, h⟩ := Outcome.of_check h
    obtain ⟨link', checked', h'⟩ := Outcome.exists_of_bind h'
    obtain ⟨operand', parsed', h'⟩ := Outcome.exists_of_bind h'
    obtain ⟨_, h'⟩ := Outcome.of_check h'
    cases checked.symm.trans checked'
    cases parsed.symm.trans parsed'
    exact Except.ok.inj (h.symm.trans h')
  | filterExists connective negated edge =>
    have sides : openGroups = 0 ↔ groups = 0 := by
      by_cases first : openGroups = 0 <;> by_cases second : groups = 0 <;>
        simp_all [Step.kind?]
    unfold Step.fragment at h h'
    simp only [sides] at h
    exact Except.ok.inj (h.symm.trans h')
  | filterAggregate connective key value =>
    obtain ⟨all, first, second⟩ := held rfl
    obtain ⟨⟨label, operator⟩, parsed, h⟩ := Outcome.exists_of_bind h
    obtain ⟨⟨label', operator'⟩, parsed', h'⟩ := Outcome.exists_of_bind h'
    cases parsed.symm.trans parsed'
    dsimp only at h h'
    split at h
    · obtain ⟨_, h⟩ := Outcome.of_check h
      obtain ⟨_, h'⟩ := Outcome.of_check h'
      split at h
      · next aggregate found =>
        split at h'
        · next aggregate' found' =>
          have found := first.find?_eq_some found
          have found' := second.find?_eq_some found'
          cases found.symm.trans found'
          exact Except.ok.inj (h.symm.trans h')
        · cases h'
      · cases h
    · cases h
  | _ => exact Except.ok.inj (h.symm.trans h')

def MayAdd (subquery : SubqueryCompiler) (scope : Scope) (all : List RelatedAggregate)
    (kind : CallKind) (step : Step) (fragment : Fragment) : Prop :=
  ∃ aggregates openGroups, aggregates <+: all ∧ step.isCall ∧
    step.kind? openGroups = some kind ∧
    step.fragment subquery (.ok scope) aggregates openGroups = .ok fragment

theorem forall₂_of_contributions {steps : List Step} (calls : ∀ step ∈ steps, step.isCall)
    {fragments : List Fragment} {all : List RelatedAggregate}
    (h : contributions subquery scope aggregates openGroups steps = .ok fragments)
    (first : aggregates ++ fragments.filterMap Fragment.aggregate? <+: all) (kind : CallKind) :
    List.Forall₂ (MayAdd subquery scope all kind) (ofKind kind openGroups steps)
      (fragments.filter (·.kind? = some kind)) := by
  induction steps generalizing aggregates openGroups fragments with
  | nil =>
    cases h
    exact .nil
  | cons step rest ih =>
    rw [contributions] at h
    obtain ⟨fragment, here, h⟩ := Outcome.exists_of_bind h
    obtain ⟨more, later, h⟩ := Outcome.exists_of_bind h
    cases h
    have call := calls step List.mem_cons_self
    have split : (fragment :: more).filterMap Fragment.aggregate? =
        fragment.aggregate?.toList ++ more.filterMap Fragment.aggregate? := by
      rw [List.filterMap_cons]
      cases fragment.aggregate? <;> rfl
    rw [split, ← List.append_assoc] at first
    have later := ih (fun step member => calls step (List.mem_cons_of_mem _ member)) later first
    have known := kind_of_fragment call here
    unfold ofKind
    by_cases same : step.kind? openGroups = some kind
    · rw [if_pos same, List.filter_cons_of_pos (by simp [known, same])]
      have begins : aggregates <+: all :=
        ((List.prefix_append _ _).trans (List.prefix_append _ _)).trans first
      exact .cons ⟨aggregates, openGroups, begins, call, same, here⟩ later
    · rw [if_neg same, List.filter_cons_of_neg (by simp [known, same])]
      exact later

theorem eq_of_forall₂ {steps : List Step} {first second : List Fragment}
    {all whole : List RelatedAggregate} {kind : CallKind}
    (h : List.Forall₂ (MayAdd subquery scope all kind) steps first)
    (h' : List.Forall₂ (MayAdd subquery scope whole kind) steps second)
    (same : kind = .filter → all = whole) : first = second := by
  induction h generalizing second with
  | nil =>
    cases h'
    rfl
  | cons here _ ih =>
    cases h' with
    | cons here' later' =>
      obtain ⟨aggregates, openGroups, begins, call, known, adds⟩ := here
      obtain ⟨others, groups, begins', _, known', adds'⟩ := here'
      have held : _ = some CallKind.filter → ∃ all, aggregates <+: all ∧ others <+: all :=
        fun filter => ⟨all, begins,
          same (Option.some.inj (known.symm.trans filter)) ▸ begins'⟩
      rw [fragment_unique call adds adds' (known.trans known'.symm) held, ih later']

theorem filterMap_of_kind {α : Type} {pick : Fragment → Option α} {kind : CallKind}
    (only : ∀ fragment, (pick fragment).isSome → fragment.kind? = some kind)
    (fragments : List Fragment) :
    fragments.filterMap pick = (fragments.filter (·.kind? = some kind)).filterMap pick := by
  rw [List.filterMap_filter]
  congr 1
  funext fragment
  cases picked : pick fragment with
  | none => simp
  | some held => simp [only fragment (by simp [picked])]

theorem filter_kind_eq {steps rearranged : List Step} {fragments rearrangement : List Fragment}
    (calls : ∀ step ∈ steps, step.isCall) (calls' : ∀ step ∈ rearranged, step.isCall)
    (h : contributions subquery scope [] 0 steps = .ok fragments)
    (h' : contributions subquery scope [] 0 rearranged = .ok rearrangement)
    (same : ∀ kind, ofKind kind 0 rearranged = ofKind kind 0 steps) (kind : CallKind) :
    rearrangement.filter (·.kind? = some kind) = fragments.filter (·.kind? = some kind) := by
  have first := forall₂_of_contributions calls h List.prefix_rfl
  have second := forall₂_of_contributions calls' h' List.prefix_rfl
  have aggregate : ∀ fragment : Fragment, fragment.aggregate?.isSome →
      fragment.kind? = some .aggregate := by
    rintro (_ | _ | _ | _ | _ | _ | _ | _ | ⟨⟨⟩⟩) <;> simp [Fragment.aggregate?,
      Fragment.declaration?, Declaration.aggregate?, Fragment.kind?]
  have agree (kind : CallKind) (other : kind ≠ .filter) :
      rearrangement.filter (·.kind? = some kind) = fragments.filter (·.kind? = some kind) :=
    eq_of_forall₂ (same kind ▸ second kind) (first kind) fun filter => absurd filter other
  have aggregates : rearrangement.filterMap Fragment.aggregate? =
      fragments.filterMap Fragment.aggregate? := by
    rw [filterMap_of_kind aggregate, agree .aggregate (by decide), ← filterMap_of_kind aggregate]
  exact eq_of_forall₂ (same kind ▸ second kind) (first kind) fun _ => congrArg ([] ++ ·) aggregates

end Fragments

section Rearranged

variable {fragments others : List Fragment}

theorem filterMap_eq_of_kind {α : Type}
    (same : ∀ kind, others.filter (·.kind? = some kind) = fragments.filter (·.kind? = some kind))
    (kind : CallKind) (pick : Fragment → Option α)
    (only : ∀ fragment, (pick fragment).isSome → fragment.kind? = some kind) :
    others.filterMap pick = fragments.filterMap pick := by
  rw [filterMap_of_kind only, same kind, ← filterMap_of_kind only]

theorem entries_eq_of_kind
    (same : ∀ kind, others.filter (·.kind? = some kind) = fragments.filter (·.kind? = some kind)) :
    others.filterMap Fragment.entry? = fragments.filterMap Fragment.entry? :=
  filterMap_eq_of_kind same .content _ (by rintro ⟨⟩ <;> simp [Fragment.entry?, Fragment.kind?])

theorem finalSql_congr
    (same : ∀ kind, others.filter (·.kind? = some kind) = fragments.filter (·.kind? = some kind))
    (config : Config) (table : Table) (outline : Outline Condition) :
    finalSql config table others outline = finalSql config table fragments outline := by
  have outputs := filterMap_eq_of_kind same .select Fragment.output?
    (by rintro ⟨⟩ <;> simp [Fragment.output?, Fragment.kind?])
  have joins := filterMap_eq_of_kind same .join Fragment.join?
    (by rintro ⟨⟩ <;> simp [Fragment.join?, Fragment.kind?])
  have ordering := filterMap_eq_of_kind same .ordering Fragment.ordering?
    (by rintro ⟨⟩ <;> simp [Fragment.ordering?, Fragment.kind?])
  have limit := filterMap_eq_of_kind same .paging Fragment.limit?
    (by rintro ⟨⟩ <;> simp [Fragment.limit?, Fragment.kind?])
  have offset := filterMap_eq_of_kind same .paging Fragment.offset?
    (by rintro ⟨⟩ <;> simp [Fragment.offset?, Fragment.kind?])
  have declared {α : Type} (kind : CallKind) (pick : Declaration → Option α)
      (only : ∀ declaration, (pick declaration).isSome →
        (Fragment.declared declaration).kind? = some kind) :
      others.filterMap (fun fragment => fragment.declaration?.bind pick) =
        fragments.filterMap fun fragment => fragment.declaration?.bind pick := by
    refine filterMap_eq_of_kind same kind _ fun fragment => ?_
    cases fragment with
    | declared declaration => exact only declaration
    | _ => simp [Fragment.declaration?]
  have counts := declared .count Declaration.count?
    (by rintro ⟨⟩ <;> simp [Declaration.count?, Fragment.kind?])
  have aggregates := declared .aggregate Declaration.aggregate?
    (by rintro ⟨⟩ <;> simp [Declaration.aggregate?, Fragment.kind?])
  have existences := declared .existence Declaration.existence?
    (by rintro ⟨⟩ <;> simp [Declaration.existence?, Fragment.kind?])
  have filters := declared .filter Declaration.filter?
    (by rintro ⟨⟩ <;> simp [Declaration.filter?, Fragment.kind?])
  have relations := declared .relation Declaration.relation?
    (by rintro ⟨⟩ <;> simp [Declaration.relation?, Fragment.kind?])
  unfold finalSql
  simp only [outputs, joins, ordering, limit, offset, counts, aggregates, existences, filters,
    relations]

end Rearranged

namespace Query

theorem summed_of_refine {config : Config} {raw : String} {steps : List Step} {q : Query}
    (calls : ∀ step ∈ steps, step.isCall) (keeps : ∀ step ∈ steps, ¬step.setsTable)
    (runs : (empty config).refine (.fromTable raw :: steps) = .ok q)
    (closed : q.statement.openGroups = 0) :
    ∃ (table : Table) (fragments : List Fragment) (outline : Outline Condition),
      checkLabelled .table raw = .ok (table.name, table.label) ∧
      contributions compileSubquery ⟨config, 0, table.knownAs⟩ [] 0 steps = .ok fragments ∧
      outline.calls = fragments.filterMap Fragment.entry? ∧
      q.sql = finalSql config table fragments outline := by
  obtain ⟨start, first, runs⟩ := exists_of_refineUsing runs
  obtain ⟨⟨name, label⟩, checked, made⟩ := Outcome.exists_of_bind (exists_of_orUnchanged first)
  cases made
  let table : Table := { name, label }
  let start := (empty config).put (.table table)
  have fresh : start.Fresh := ⟨rfl, rfl, rfl⟩
  have tableFirst : TableFirst steps :=
    List.pairwise_of_forall_mem_list fun _ _ step member _ => keeps step member
  have unmarked : (steps.map (·, true)).map Prod.fst = steps := by
    rw [List.map_map]
    exact List.map_id steps
  have runs : start.refineUsing compileSubquery ((steps.map (·, true)).map Prod.fst) = .ok q :=
    unmarked.symm ▸ runs
  obtain ⟨idle, slots, prompt⟩ := exists_refinePromptly fresh (unmarked.symm ▸ calls)
    (unmarked.symm ▸ tableFirst) runs closed
  obtain ⟨fragments, contributed, whole⟩ :=
    contributions_of_refinePromptly calls keeps rfl fresh.idle prompt
  have nested : Clause.nesting 0 (fragments.filterMap Fragment.entry?) = some 0 := by
    have entered : (fragments.filterMap Fragment.entry?).foldlM Statement.enter
        (conditionsOnly start) = .ok _ :=
      Statement.foldlM_enter_of_nesting (nesting_of_contributions calls contributed)
    have nested := Statement.nesting_of_enter entered
    rw [← conditionsOnly_foldl_put, ← whole] at nested
    exact nested.trans (congrArg some closed)
  obtain ⟨outline, described, _⟩ := Outline.existsUnique_calls_eq nested
  obtain ⟨wantsTotal, sum⟩ : ∃ wantsTotal, fragments.foldl put start =
      summed config table fragments outline wantsTotal :=
    foldl_put_eq_summed described (ne_table_of_contributions keeps contributed)
  refine ⟨table, fragments, outline, checked, contributed, described, ?_⟩
  rw [← sql_withSlots closed idle slots, whole, sum, sql_summed]

/-- Calls over a table that close all their groups come to one text, put together from what each
of them adds. So the text stays the same when calls of different kinds change places, as long as
those of each kind keep their order. -/
theorem sql_of_calls {config : Config} {raw : String} {steps : List Step} {q : Query}
    (calls : ∀ step ∈ steps, step.isCall) (keeps : ∀ step ∈ steps, ¬step.setsTable)
    (runs : (empty config).refine (.fromTable raw :: steps) = .ok q)
    (closed : q.statement.openGroups = 0) :
    (∃ (table : Table) (fragments : List Fragment) (outline : Outline Condition),
      checkLabelled .table raw = .ok (table.name, table.label) ∧
      contributions compileSubquery ⟨config, 0, table.knownAs⟩ [] 0 steps = .ok fragments ∧
      outline.calls = fragments.filterMap Fragment.entry? ∧
      q.sql = finalSql config table fragments outline) ∧
    ∀ (rearranged : List Step) (other : Query), (∀ step ∈ rearranged, step.isCall) →
      (∀ step ∈ rearranged, ¬step.setsTable) →
      (empty config).refine (.fromTable raw :: rearranged) = .ok other →
      other.statement.openGroups = 0 →
      (∀ kind, ofKind kind 0 rearranged = ofKind kind 0 steps) → other.sql = q.sql := by
  have sum := summed_of_refine calls keeps runs closed
  refine ⟨sum, fun rearranged other calls' keeps' runs' closed' same => ?_⟩
  obtain ⟨⟨name, label⟩, fragments, outline, checked, contributed, described, text⟩ := sum
  obtain ⟨⟨name', label'⟩, fragments', outline', checked', contributed', described', text'⟩ :=
    summed_of_refine calls' keeps' runs' closed'
  cases checked.symm.trans checked'
  have kinds := filter_kind_eq calls calls' contributed contributed' same
  have entries := entries_eq_of_kind kinds
  rw [← described, ← described'] at entries
  obtain rfl : outline' = outline :=
    (Outline.calls_injective (by simp) (by simp) (congrArg (· ++ []) entries)).1
  rw [text, text', finalSql_congr kinds]

def arrangedCalls : List Step := [
  .select "id",
  .filter .and "status" (.text "open"),
  .filterCount .or { target := "orders", foreign := ["user_id"], own := ["id"] } ">" 2,
  .filterExists .and true { target := "bans", foreign := ["user_id"], own := ["id"] },
  .aggregate .sum { target := "payments", foreign := ["user_id"], own := ["id"] } "total",
  .filterAggregate .and "payments_sum >" (.text "9"),
  .load .many { target := "orders", foreign := ["user_id"], own := ["id"] },
  .orderBy "id" .asc,
  .limit 5]

def rearrangedCalls : List Step := [
  .limit 5,
  .orderBy "id" .asc,
  .load .many { target := "orders", foreign := ["user_id"], own := ["id"] },
  .aggregate .sum { target := "payments", foreign := ["user_id"], own := ["id"] } "total",
  .filterAggregate .and "payments_sum >" (.text "9"),
  .filterExists .and true { target := "bans", foreign := ["user_id"], own := ["id"] },
  .filterCount .or { target := "orders", foreign := ["user_id"], own := ["id"] } ">" 2,
  .filter .and "status" (.text "open"),
  .select "id"]

def arrangedText : String :=
  "SELECT \"id\", (SELECT SUM(\"payments_sum_s1\".\"total\") FROM \"payments\" AS " ++
    "\"payments_sum_s1\" WHERE \"payments_sum_s1\".\"user_id\" = \"users\".\"id\") AS " ++
    "\"payments_sum\", \"users\".\"id\" AS \"__rq_id\" FROM \"users\" WHERE \"status\" = " ++
    "'open' OR (SELECT COUNT(*) FROM \"orders\" AS \"orders_s1\" WHERE " ++
    "\"orders_s1\".\"user_id\" = \"users\".\"id\") > 2 AND NOT EXISTS (SELECT 1 FROM \"bans\" " ++
    "AS \"bans_s1\" WHERE \"bans_s1\".\"user_id\" = \"users\".\"id\") AND COALESCE((SELECT " ++
    "SUM(\"payments_sum_s1\".\"total\") FROM \"payments\" AS \"payments_sum_s1\" WHERE " ++
    "\"payments_sum_s1\".\"user_id\" = \"users\".\"id\"), 0) > '9' ORDER BY \"id\" ASC LIMIT 5"

theorem arranged_sql_of_calls :
    (∀ step ∈ arrangedCalls, step.isCall ∧ ¬step.setsTable) ∧
    (∀ step ∈ rearrangedCalls, step.isCall ∧ ¬step.setsTable) ∧
    (∀ kind, ofKind kind 0 rearrangedCalls = ofKind kind 0 arrangedCalls) ∧
    ∃ q other, (empty {}).refine (.fromTable "users" :: arrangedCalls) = .ok q ∧
      (empty {}).refine (.fromTable "users" :: rearrangedCalls) = .ok other ∧
      q.statement.openGroups = 0 ∧ other.statement.openGroups = 0 ∧
      other.sql = q.sql ∧ q.sql.toOption = some arrangedText := by
  have calls : ∀ step ∈ arrangedCalls, step.isCall ∧ ¬step.setsTable := by decide
  have calls' : ∀ step ∈ rearrangedCalls, step.isCall ∧ ¬step.setsTable := by decide
  have same (kind : CallKind) : ofKind kind 0 rearrangedCalls = ofKind kind 0 arrangedCalls := by
    cases kind <;> rfl
  have ends : ((empty {}).refine (.fromTable "users" :: arrangedCalls)).toOption.map (fun q =>
      (q.statement.openGroups, q.sql.toOption)) = some (0, some arrangedText) := by decide +kernel
  have ends' : ((empty {}).refine (.fromTable "users" :: rearrangedCalls)).toOption.map
      (·.statement.openGroups) = some 0 := by decide +kernel
  cases runs : (empty {}).refine (.fromTable "users" :: arrangedCalls) with
  | error error =>
    rw [runs] at ends
    cases ends
  | ok q =>
  cases runs' : (empty {}).refine (.fromTable "users" :: rearrangedCalls) with
  | error error =>
    rw [runs'] at ends'
    cases ends'
  | ok other =>
  rw [runs] at ends
  rw [runs'] at ends'
  obtain ⟨closed, text⟩ := Prod.ext_iff.1 (Option.some.inj ends)
  have closed' := Option.some.inj ends'
  have equal := (sql_of_calls (fun step member => (calls step member).1)
    (fun step member => (calls step member).2) runs closed).2 rearrangedCalls other
    (fun step member => (calls' step member).1) (fun step member => (calls' step member).2) runs'
    closed' same
  exact ⟨calls, calls', same, q, other, rfl, rfl, closed, closed', equal, text⟩

end Query

end RelationQuery
