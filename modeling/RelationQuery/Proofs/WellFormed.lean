import Mathlib.Data.List.Nodup
import RelationQuery.Proofs.Moves

/-! What holds of a query between calls. Main statement: whatever the calls, and whether they go
through or fail, a query stays well formed: what it has declared was checked, and the conditions
that wait have places of their own in groups that are still open. -/
namespace RelationQuery

structure Link.Valid (link : Link Refinement) : Prop where
  target : Identifier.check .table link.target.toList = .ok ()
  label : ∀ label ∈ link.label, Identifier.check .table label.toList = .ok ()
  keyed : link.foreign ≠ []
  paired : link.foreign.length = link.own.length
  foreign : ∀ column ∈ link.foreign, Identifier.check .column column.toList = .ok ()
  own : ∀ column ∈ link.own, Identifier.check .column column.toList = .ok ()

/-- A star is counted only; everything else is a column or an expression in the mode that its
kind is compiled in. -/
def Aggregate.Valid (measure : Aggregate String) : Prop :=
  match measure.operand with
  | .star => measure.kind = .count
  | .column name => Identifier.check .column name.toList = .ok ()
  | .expression source => Expression.validate measure.kind.compileMode source = .ok ()

namespace Declaration

def link : Declaration → Link Refinement
  | .relation held => held.link
  | .aggregate held => held.link
  | .count held => held.link
  | .existence held => held.link
  | .filter held => held.aggregate.link

/-- What was checked of a declaration when the query had these aggregates. -/
def Admitted (aggregates : List RelatedAggregate) : Declaration → Prop
  | .aggregate held => held.link.Valid ∧ held.measure.Valid ∧
    held.label ∉ aggregates.map RelatedAggregate.label
  | .filter held => held.aggregate ∈ aggregates
  | declaration => declaration.link.Valid

end Declaration

namespace Query

structure WellFormed (q : Query) : Prop where
  links : ∀ declaration ∈ q.declarations, declaration.link.Valid
  measures : ∀ aggregate ∈ q.aggregates, aggregate.measure.Valid
  labels : (q.aggregates.map RelatedAggregate.label).Nodup
  /-- The aggregate of a filter is declared before it, and is the only one so labelled. -/
  filters : ∀ front filter back, q.declarations = front ++ .filter filter :: back →
    filter.aggregate ∈ front.filterMap Declaration.aggregate? ∧
    ∀ aggregate ∈ q.aggregates, aggregate.label = filter.aggregate.label →
      aggregate = filter.aggregate
  waiting : ∀ deferred ∈ q.deferrals, deferred.existence.link.Valid ∧
    1 ≤ deferred.depth ∧ deferred.depth ≤ q.statement.openGroups
  /-- The numbers that wait are different ones, each that of one place in the clause. -/
  places : (q.deferrals.map Deferred.slot).Nodup ∧ q.statement.conditions.slots.Nodup ∧
    q.deferrals.map Deferred.slot ⊆ q.statement.conditions.slots
  fresh : ∀ slot ∈ q.statement.conditions.slots, slot < q.statement.slots
  groups : Clause.nesting 0 q.statement.conditions = some q.statement.openGroups

end Query

/-! ### What the checks of a step make sure of -/

theorem checkName_ok_iff {kind : Identifier.Kind} {name : String} :
    checkName kind name = .ok () ↔ Identifier.check kind name.toList = .ok () := by
  unfold checkName
  cases Identifier.check kind name.toList <;> simp [Except.mapError]

theorem of_checkLabelled {kind : Identifier.Kind} {raw name : String} {label : Option String}
    (h : checkLabelled kind raw = .ok (name, label)) :
    Identifier.check kind name.toList = .ok () ∧
      ∀ held ∈ label, Identifier.check .table held.toList = .ok () := by
  unfold checkLabelled at h
  generalize Name.splitLabel raw = parts at h
  obtain ⟨plain, _ | held⟩ := parts
  · obtain ⟨⟨⟩, checked, h⟩ := Outcome.exists_of_bind h
    cases h
    exact ⟨checkName_ok_iff.1 checked, nofun⟩
  · obtain ⟨⟨⟩, checked, h⟩ := Outcome.exists_of_bind h
    obtain ⟨⟨⟩, labelled, h⟩ := Outcome.exists_of_bind h
    cases h
    refine ⟨checkName_ok_iff.1 checked, ?_⟩
    rintro _ ⟨⟩
    exact checkName_ok_iff.1 labelled

theorem of_forM_checkName {kind : Identifier.Kind} {names : List String}
    (h : names.forM (checkName kind) = .ok ()) :
    ∀ name ∈ names, Identifier.check kind name.toList = .ok () := by
  induction names with
  | nil => nofun
  | cons name rest ih =>
    obtain ⟨⟨⟩, checked, h⟩ := Outcome.exists_of_bind h
    exact List.forall_mem_cons.2 ⟨checkName_ok_iff.1 checked, ih h⟩

theorem Edge.valid_link {edge : Edge Refinement} {link : Link Refinement}
    (h : edge.link = .ok link) : link.Valid := by
  unfold Edge.link at h
  obtain ⟨⟨target, label⟩, checked, h⟩ := Outcome.exists_of_bind h
  obtain ⟨keyed, h⟩ := Outcome.of_check h
  obtain ⟨paired, h⟩ := Outcome.of_check h
  obtain ⟨⟨⟩, foreign, h⟩ := Outcome.exists_of_bind h
  obtain ⟨⟨⟩, own, h⟩ := Outcome.exists_of_bind h
  cases h
  obtain ⟨target, label⟩ := of_checkLabelled checked
  simp only [List.isEmpty_iff, not_or] at keyed
  exact {
    target, label
    keyed := keyed.1
    paired := not_not.1 paired
    foreign := of_forM_checkName foreign
    own := of_forM_checkName own }

/-- An operand is compiled in the mode that it was checked in. -/
theorem Aggregate.Kind.compileMode_eq (kind : Kind) : kind.compileMode = kind.mode := by
  cases kind <;> rfl

theorem Aggregate.valid_of_checkOperand {kind : Aggregate.Kind} {column : String}
    {operand : Aggregate.Operand String} (h : Query.checkOperand kind column = .ok operand) :
    Aggregate.Valid { kind, operand } := by
  unfold Query.checkOperand at h
  dsimp only at h
  split at h
  · split at h
    · next count =>
      cases h
      exact count
    · cases h
  · split at h
    · next checked =>
      cases h
      exact checked
    · obtain ⟨⟨⟩, checked, same⟩ := Outcome.exists_of_map (Outcome.ok_of_mapError h)
      cases same
      rw [← kind.compileMode_eq] at checked
      exact checked

theorem Aggregate.Valid.exists_compile {measure : Aggregate String} (h : measure.Valid) :
    ∃ compiled, measure.compile = .ok compiled := by
  obtain ⟨kind, operand⟩ := measure
  cases operand with
  | star | column => exact ⟨_, rfl⟩
  | expression source =>
    obtain ⟨value, parsed, -⟩ := Outcome.exists_of_map h
    have operand : Operand.compile kind (.expression source) = .ok (.expression value) := by
      rw [Operand.compile, parsed]
      rfl
    unfold Aggregate.compile
    rw [operand]
    exact ⟨_, rfl⟩

theorem Step.admitted_of_fragment {subquery : SubqueryCompiler} {scope : Except Error Scope}
    {aggregates : List RelatedAggregate} {openGroups : Nat} : ∀ (step : Step)
    {declaration : Declaration},
    step.fragment subquery scope aggregates openGroups = .ok (.declared declaration) →
      declaration.Admitted aggregates
  | .attempt step, _, h => admitted_of_fragment step h
  | .aggregate kind edge column, declaration, h => by
    obtain ⟨link, checked, h⟩ := Outcome.exists_of_bind h
    obtain ⟨operand, allowed, h⟩ := Outcome.exists_of_bind h
    obtain ⟨new, h⟩ := Outcome.of_check h
    cases h
    refine ⟨Edge.valid_link checked, Aggregate.valid_of_checkOperand allowed, ?_⟩
    simpa using new
  | .load .., _, h => by
    cases gives_of_fragment h with
    | load _ checked => exact Edge.valid_link checked
  | .filterCount .., _, h => by
    cases gives_of_fragment h with
    | filterCount _ _ _ _ checked => exact Edge.valid_link checked
  | .filterExists .., _, h => by
    cases gives_of_fragment h with
    | filterExists _ _ checked => exact Edge.valid_link checked
  | .filterAggregate .., _, h => by
    cases gives_of_fragment h with
    | filterAggregate _ _ _ _ member => exact member
  | .fromTable _, _, h | .select _, _, h | .join .., _, h | .filter .., _, h
  | .filterIn .., _, h | .openGroup .., _, h | .closeGroup, _, h | .orderBy .., _, h
  | .limit _, _, h | .offset _, _, h | .countAll, _, h | .filterExistsNow .., _, h
  | .orderByAggregate .., _, h | .fail _, _, h => by cases gives_of_fragment h

/-! ### What a query keeps -/

namespace Query.WellFormed

variable {q : Query}

theorem of_eq {other : Query} (h : q.WellFormed)
    (declarations : other.declarations = q.declarations) (deferrals : other.deferrals = q.deferrals)
    (conditions : other.statement.conditions = q.statement.conditions)
    (openGroups : other.statement.openGroups = q.statement.openGroups)
    (slots : other.statement.slots = q.statement.slots) : other.WellFormed := by
  have aggregates : other.aggregates = q.aggregates := by rw [aggregates, declarations, aggregates]
  constructor
  · exact declarations ▸ h.links
  · exact aggregates ▸ h.measures
  · exact aggregates ▸ h.labels
  · rw [declarations, aggregates]
    exact h.filters
  · rw [deferrals, openGroups]
    exact h.waiting
  · rw [deferrals, conditions]
    exact h.places
  · rw [conditions, slots]
    exact h.fresh
  · rw [conditions, openGroups]
    exact h.groups

theorem aggregates_declare (declaration : Declaration) :
    (q.declare declaration).aggregates = q.aggregates ++ declaration.aggregate?.toList := by
  cases declaration <;> simp [aggregates, Query.declare, Declaration.aggregate?]

theorem link_of_mem_aggregates (h : q.WellFormed) {aggregate : RelatedAggregate}
    (member : aggregate ∈ q.aggregates) : aggregate.link.Valid := by
  obtain ⟨declaration, held, same⟩ := List.mem_filterMap.1 member
  cases declaration <;> cases same
  exact h.links _ held

theorem aggregate_of_filter (h : q.WellFormed) {filter : AggregateFilter}
    (declared : .filter filter ∈ q.declarations) :
    .aggregate filter.aggregate ∈ q.declarations := by
  obtain ⟨front, back, split⟩ := List.append_of_mem declared
  obtain ⟨declaration, member, same⟩ := List.mem_filterMap.1 (h.filters _ _ _ split).1
  cases declaration <;> cases same
  exact split ▸ List.mem_append_left _ member

theorem mem_aggregates_of_filter (h : q.WellFormed) {filter : AggregateFilter}
    (declared : .filter filter ∈ q.declarations) : filter.aggregate ∈ q.aggregates :=
  List.mem_filterMap.2 ⟨_, h.aggregate_of_filter declared, rfl⟩

theorem labels_declare (h : q.WellFormed) {declaration : Declaration}
    (admitted : declaration.Admitted q.aggregates) :
    ((q.declare declaration).aggregates.map RelatedAggregate.label).Nodup := by
  rw [aggregates_declare]
  cases declaration with
  | aggregate held =>
    simpa [Declaration.aggregate?, List.nodup_append] using ⟨h.labels, fun other member same =>
      admitted.2.2 (List.mem_map.2 ⟨other, member, same⟩)⟩
  | _ => simpa [Declaration.aggregate?] using h.labels

theorem mem_front_of_declare (h : q.WellFormed) {declaration : Declaration}
    (admitted : declaration.Admitted q.aggregates) {front back : List Declaration}
    {filter : AggregateFilter}
    (split : (q.declare declaration).declarations = front ++ .filter filter :: back) :
    filter.aggregate ∈ front.filterMap Declaration.aggregate? := by
  change q.declarations ++ [declaration] = _ at split
  rcases back.eq_nil_or_concat with rfl | ⟨between, last, rfl⟩
  · obtain ⟨rfl, new⟩ := List.append_inj' split rfl
    cases new
    exact admitted
  · rw [List.concat_eq_append, ← List.cons_append, ← List.append_assoc] at split
    exact (h.filters _ _ _ (List.append_inj' split rfl).1).1

theorem declare (h : q.WellFormed) {declaration : Declaration}
    (admitted : declaration.Admitted q.aggregates) : (q.declare declaration).WellFormed where
  links held member := by
    rcases List.mem_append.1 member with old | new
    · exact h.links held old
    · obtain rfl := List.mem_singleton.1 new
      cases held with
      | aggregate => exact admitted.1
      | filter => exact h.link_of_mem_aggregates admitted
      | relation | count | existence => exact admitted
  measures aggregate member := by
    rw [aggregates_declare] at member
    rcases List.mem_append.1 member with old | new
    · exact h.measures aggregate old
    · cases declaration with
      | aggregate held =>
        obtain rfl := List.mem_singleton.1 new
        exact admitted.2.1
      | _ => cases new
  labels := h.labels_declare admitted
  filters front filter back split := by
    have before := h.mem_front_of_declare admitted split
    have held : filter.aggregate ∈ (q.declare declaration).aggregates := by
      rw [aggregates, split, List.filterMap_append]
      exact List.mem_append_left _ before
    exact ⟨before, fun aggregate member same =>
      List.inj_on_of_nodup_map (h.labels_declare admitted) member held same⟩
  waiting := h.waiting
  places := h.places
  fresh := h.fresh
  groups := h.groups

theorem addCondition (h : q.WellFormed) (connective : Connective) (condition : Condition) :
    (q.onStatement (·.addCondition connective condition)).WellFormed where
  __ := h
  places := by simpa [onStatement, Statement.addCondition] using h.places
  fresh := by simpa [onStatement, Statement.addCondition] using h.fresh
  groups := by
    change Clause.nesting 0 (_ ++ _) = _
    rw [Clause.nesting_append, h.groups]
    rfl

theorem openGroup (h : q.WellFormed) (connective : Connective) (negated : Bool) :
    (q.openGroup connective negated).WellFormed where
  __ := h
  waiting deferred member := by
    obtain ⟨valid, inside, opened⟩ := h.waiting deferred member
    exact ⟨valid, inside, Nat.le_succ_of_le opened⟩
  places := by simpa [Query.openGroup, onStatement, Statement.openGroup] using h.places
  fresh := by simpa [Query.openGroup, onStatement, Statement.openGroup] using h.fresh
  groups := by
    change Clause.nesting 0 (_ ++ _) = _
    rw [Clause.nesting_append, h.groups]
    rfl

theorem put (h : q.WellFormed) {fragment : Fragment} (opens : fragment ≠ .entry .closing)
    (admitted : ∀ declaration, fragment = .declared declaration →
      declaration.Admitted q.aggregates) : (q.put fragment).WellFormed := by
  cases fragment with
  | entry entry =>
    cases entry with
    | item connective condition => exact h.addCondition connective condition
    | opening connective negated => exact h.openGroup connective negated
    | closing => exact absurd rfl opens
  | declared declaration => exact h.declare (admitted declaration rfl)
  | _ => exact h.of_eq rfl rfl rfl rfl rfl

theorem defer (h : q.WellFormed) (opened : q.statement.openGroups ≠ 0)
    {existence : RelatedExistence} (valid : existence.link.Valid) :
    (q.defer existence).WellFormed where
  __ := h
  waiting deferred member := by
    rcases List.mem_append.1 member with held | new
    · exact h.waiting deferred held
    · obtain rfl := List.mem_singleton.1 new
      exact ⟨valid, Nat.one_le_iff_ne_zero.2 opened, Nat.le_refl _⟩
  places := by
    obtain ⟨apart, single, reserved⟩ := h.places
    have new : q.statement.slots ∉ q.statement.conditions.slots :=
      fun held => Nat.lt_irrefl _ (h.fresh _ held)
    have slots : (q.defer existence).statement.conditions.slots =
        q.statement.conditions.slots ++ [q.statement.slots] := Clause.slots_add_reserved _ _ _
    have waiting : (q.defer existence).deferrals.map Deferred.slot =
        q.deferrals.map Deferred.slot ++ [q.statement.slots] := List.map_append
    rw [slots, waiting, ← List.concat_eq_append, ← List.concat_eq_append]
    refine ⟨apart.concat fun held => new (reserved held), single.concat new, ?_⟩
    rw [List.concat_eq_append, List.concat_eq_append]
    exact List.append_subset.2 ⟨List.subset_append_of_subset_left _ reserved,
      List.subset_append_right _ _⟩
  fresh := by
    intro slot member
    change slot ∈ Clause.slots (Clause.add _ _ (.reserved _)) at member
    rw [Clause.slots_add_reserved, List.mem_append, List.mem_singleton] at member
    rcases member with held | rfl
    · exact Nat.lt_succ_of_lt (h.fresh slot held)
    · exact Nat.lt_succ_self _
  groups := by
    change Clause.nesting 0 (_ ++ _) = _
    rw [Clause.nesting_append, h.groups]
    rfl

theorem fewer (h : q.WellFormed) {deferrals : List Deferred}
    (fewer : deferrals.Subperm q.deferrals) : ({ q with deferrals } : Query).WellFormed where
  __ := h
  waiting deferred member := h.waiting deferred (fewer.subset member)
  places := by
    obtain ⟨apart, single, reserved⟩ := h.places
    obtain ⟨kept, same, within⟩ := fewer
    refine ⟨(same.map _).nodup_iff.1 (apart.sublist (within.map _)), single, fun slot member => ?_⟩
    exact reserved ((within.map _).subset ((same.map _).mem_iff.2 member))

theorem fill (h : q.WellFormed) {deferred : Deferred} {rest : List Deferred}
    (first : q.deferrals = deferred :: rest) {condition : Condition} {statement : Statement}
    (fills : q.statement.fill deferred.slot condition = .ok statement) :
    ({ q with statement, deferrals := rest } : Query).WellFormed := by
  obtain ⟨conditions, found, rfl⟩ := Statement.exists_of_fill fills
  have taken := Clause.perm_slots_of_fill? found
  obtain ⟨apart, single, reserved⟩ := h.places
  rw [first, List.map_cons] at apart reserved
  obtain ⟨own, apart⟩ := List.nodup_cons.1 apart
  exact {
    links := h.links
    measures := h.measures
    labels := h.labels
    filters := h.filters
    waiting := fun other member =>
      h.waiting other (first ▸ List.mem_cons_of_mem _ member)
    places := by
      refine ⟨apart, (List.nodup_cons.1 (taken.nodup_iff.1 single)).2, fun slot member => ?_⟩
      have held := taken.subset (reserved (List.mem_cons_of_mem _ member))
      exact (List.mem_cons.1 held).resolve_left fun same => own (same ▸ member)
    fresh := fun slot member => h.fresh slot (taken.symm.subset (List.mem_cons_of_mem _ member))
    groups := (Clause.nesting_fill? found 0).trans h.groups }

theorem settle (subquery : SubqueryCompiler) {ready rest : List Deferred}
    (h : ({ q with deferrals := ready ++ rest } : Query).WellFormed) :
    ({ (q.settle subquery ready).1 with deferrals := rest } : Query).WellFormed := by
  induction ready generalizing q with
  | nil => exact h
  | cons deferred more ih =>
    unfold Query.settle
    dsimp only
    split
    · next statement filled =>
      obtain ⟨scope, known, filled⟩ := Outcome.exists_of_bind filled
      obtain ⟨condition, compiled, filled⟩ := Outcome.exists_of_bind filled
      exact @ih { q with statement } (h.fill rfl filled)
    · exact h.fewer (List.sublist_append_right _ rest).subperm

theorem openGroups_settle (subquery : SubqueryCompiler) (ready : List Deferred) (q : Query) :
    (q.settle subquery ready).1.statement.openGroups = q.statement.openGroups := by
  induction ready generalizing q with
  | nil => rfl
  | cons deferred rest ih =>
    unfold Query.settle
    dsimp only
    split
    · next statement filled =>
      obtain ⟨_, _, filled⟩ := Outcome.exists_of_bind filled
      obtain ⟨_, _, filled⟩ := Outcome.exists_of_bind filled
      obtain ⟨_, _, rfl⟩ := Statement.exists_of_fill filled
      exact ih _
    · rfl

theorem closing (h : q.WellFormed) (opened : q.statement.openGroups ≠ 0)
    (outside : ∀ deferred ∈ q.deferrals, deferred.depth < q.statement.openGroups) :
    (q.put (.entry .closing)).WellFormed where
  links := h.links
  measures := h.measures
  labels := h.labels
  filters := h.filters
  waiting deferred member := by
    obtain ⟨valid, inside, _⟩ := h.waiting deferred member
    exact ⟨valid, inside, Nat.le_pred_of_lt (outside deferred member)⟩
  places := by
    change _ ∧ (Clause.slots (Clause.closeGroup _)).Nodup ∧ _ ⊆ Clause.slots (Clause.closeGroup _)
    rw [Clause.slots_closeGroup]
    exact h.places
  fresh := by
    change ∀ slot ∈ Clause.slots (Clause.closeGroup _), _
    rw [Clause.slots_closeGroup]
    exact h.fresh
  groups := by
    apply Clause.nesting_closeGroup
    exact h.groups.trans (congrArg some (Nat.succ_pred_eq_of_ne_zero opened).symm)

/-- Closing a group keeps the query well formed also where a condition that waited for it cannot
be compiled: it and those after it wait no longer. -/
theorem closeGroup (h : q.WellFormed) (subquery : SubqueryCompiler) :
    (q.closeGroup subquery).1.WellFormed := by
  by_cases opened : q.statement.openGroups = 0
  · rw [closeGroup_of_closed opened]
    exact h
  · have settled := (h.fewer q.perm_inner_outer.subperm).settle subquery
    have same : q.outer.settle subquery q.inner = _ := settle_with q.inner q.outer.deferrals q
    have groups := openGroups_settle subquery q.inner q
    rw [closeGroup_eq opened, same]
    cases (q.settle subquery q.inner).2 with
    | some error => exact settled
    | none =>
      dsimp only
      unfold Statement.closeGroup
      split
      · next statement closes =>
        split at closes
        · cases closes
        · cases closes
          refine settled.closing (groups ▸ opened) fun deferred member => ?_
          exact groups ▸ of_decide_eq_true (List.mem_filter.1 member).2
      · exact settled

theorem orUnchanged (h : q.WellFormed) {outcome : Except Error Query}
    (keeps : ∀ after, outcome = .ok after → after.WellFormed) :
    (q.orUnchanged outcome).1.WellFormed := by
  cases outcome with
  | error error => exact h
  | ok after => exact keeps after rfl

theorem filterExists (h : q.WellFormed) (subquery : SubqueryCompiler) (connective : Connective)
    (negated : Bool) (edge : Edge Refinement) :
    (q.applyUsing subquery (.filterExists connective negated edge)).1.WellFormed := by
  refine h.orUnchanged fun after made => ?_
  by_cases closed : q.statement.openGroups = 0
  · rw [filterExists_eq_put subquery q connective negated edge closed] at made
    obtain ⟨fragment, gives, rfl⟩ := Outcome.exists_of_map made
    have call := (Step.gives_of_fragment gives).ne_closing rfl nofun
    exact h.put call fun _ same => Step.admitted_of_fragment _ (same ▸ gives)
  · rw [filterExists_eq_defer connective negated edge closed] at made
    obtain ⟨link, checked, rfl⟩ := Outcome.exists_of_map made
    exact h.defer closed (Edge.valid_link checked)

theorem applyUsing (subquery : SubqueryCompiler) {q : Query} (h : q.WellFormed) (step : Step) :
    (q.applyUsing subquery step).1.WellFormed := by
  have call {step : Step} (call : step.isCall) (closes : step ≠ .closeGroup)
      (waits : ∀ connective negated edge, step ≠ .filterExists connective negated edge) :
      (q.applyUsing subquery step).1.WellFormed := by
    rw [applyUsing_eq_put subquery q call closes
      fun connective negated edge same => absurd same (waits connective negated edge)]
    refine h.orUnchanged fun after made => ?_
    obtain ⟨fragment, gives, rfl⟩ := Outcome.exists_of_map made
    refine h.put ((Step.gives_of_fragment gives).ne_closing call closes) fun _ same => ?_
    exact Step.admitted_of_fragment _ (same ▸ gives)
  cases step with
  | attempt step => exact applyUsing subquery h step
  | fail => exact h
  | closeGroup => exact h.closeGroup subquery
  | filterExists connective negated edge => exact h.filterExists subquery connective negated edge
  | _ => exact call rfl (by simp) (by simp)

theorem empty (config : Config) : (Query.empty config).WellFormed where
  links := fun _ => (nomatch ·)
  measures := fun _ => (nomatch ·)
  labels := List.nodup_nil
  filters front filter back split := by simp [Query.empty] at split
  waiting := fun _ => (nomatch ·)
  places := ⟨List.nodup_nil, List.nodup_nil, fun _ => (nomatch ·)⟩
  fresh := fun _ => (nomatch ·)
  groups := rfl

theorem below (config : Config) (table : Table) (depth : Nat) (correlated : Bool) :
    (Query.below config table depth correlated).WellFormed :=
  (empty config).of_eq rfl rfl rfl rfl rfl

theorem foldl (h : q.WellFormed) (subquery : SubqueryCompiler) (steps : List Step) :
    (steps.foldl (fun q step => (q.applyUsing subquery step).1) q).WellFormed := by
  induction steps generalizing q with
  | nil => exact h
  | cons step rest ih => exact ih (h.applyUsing subquery step)

theorem refineUsing (h : q.WellFormed) {subquery : SubqueryCompiler} {steps : Refinement}
    {after : Query} (ran : q.refineUsing subquery steps = .ok after) : after.WellFormed :=
  of_refineUsing (fun step _ held => held.applyUsing subquery step) h ran

end Query.WellFormed

/-- Any calls on a fresh query, or on the query for the related rows of a link, leave it well
formed, those that fail among them and whatever subqueries come to. -/
theorem Query.wellFormed_of_calls (subquery : SubqueryCompiler) (steps : List Step)
    (config : Config) (table : Table) (depth : Nat) (correlated : Bool) :
    let ran := steps.foldl fun q step => (q.applyUsing subquery step).1
    (ran (empty config)).WellFormed ∧ (ran (below config table depth correlated)).WellFormed := by
  have fresh := WellFormed.empty config
  have related := WellFormed.below config table depth correlated
  exact ⟨fresh.foldl subquery steps, related.foldl subquery steps⟩

end RelationQuery
