import RelationQuery.Proofs.Capture

/-! How deep queries nest. -/
namespace RelationQuery

namespace Query

structure Placed (config : Config) (depth : Nat) (correlated : Bool) (q : Query) : Prop where
  configured : q.config = config
  depth : q.depth = depth
  correlated : q.correlated = correlated

variable {subquery other : SubqueryCompiler} {q after : Query} {config : Config} {depth : Nat}
  {correlated : Bool}

theorem Placed.put (h : q.Placed config depth correlated) (fragment : Fragment) :
    (q.put fragment).Placed config depth correlated := by
  cases fragment with
  | entry entry => cases entry <;> exact ⟨h.configured, h.depth, h.correlated⟩
  | _ => exact ⟨h.configured, h.depth, h.correlated⟩

theorem Placed.moves {step : Step} (h : q.Placed config depth correlated)
    (moves : q.Moves subquery step after) : after.Placed config depth correlated := by
  cases moves with
  | put => exact h.put _
  | defer | fill | drop => exact ⟨h.configured, h.depth, h.correlated⟩

theorem Placed.applyUsing (h : q.Placed config depth correlated) (step : Step) :
    (q.applyUsing subquery step).1.Placed config depth correlated :=
  of_moves (fun held moves => held.moves moves) h

theorem Placed.refineUsing {steps : Refinement} (h : q.Placed config depth correlated)
    (ran : q.refineUsing subquery steps = .ok after) : after.Placed config depth correlated :=
  of_refineUsing (fun step _ held => held.applyUsing step) h ran

theorem Placed.scope (h : q.Placed config depth correlated) {scope : Scope}
    (known : q.scope = .ok scope) : scope.config = config ∧ scope.depth = depth := by
  obtain ⟨anchor, _, known⟩ := Outcome.exists_of_bind known
  cases known
  exact ⟨h.configured, h.depth⟩

/-- Two ways to make subqueries that are the same for what stands at a place. -/
def Agree (config : Config) (depth : Nat) (subquery other : SubqueryCompiler) : Prop :=
  ∀ scope : Scope, scope.config = config → scope.depth = depth → subquery scope = other scope

theorem Agree.scope (agree : Agree config depth subquery other)
    (h : q.Placed config depth correlated) {scope : Scope} (known : q.scope = .ok scope) :
    subquery scope = other scope := by
  obtain ⟨configured, depth⟩ := h.scope known
  exact agree scope configured depth

theorem assemble_congr (agree : Agree config depth subquery other)
    (h : q.Placed config depth correlated) : q.assemble subquery = q.assemble other := by
  unfold assemble fillDeferred
  cases known : q.scope with
  | error error => rfl
  | ok scope =>
    have same := agree.scope h known
    have counts : RelatedCount.compile subquery scope = RelatedCount.compile other scope := by
      unfold RelatedCount.compile
      rw [same]
    have aggregates :
        RelatedAggregate.compile subquery scope = RelatedAggregate.compile other scope := by
      unfold RelatedAggregate.compile RelatedAggregate.selection
      rw [same]
    have existences :
        RelatedExistence.compile subquery scope = RelatedExistence.compile other scope := by
      unfold RelatedExistence.compile
      rw [same]
    have filters :
        AggregateFilter.compile subquery scope = AggregateFilter.compile other scope := by
      unfold AggregateFilter.compile RelatedAggregate.selection
      rw [same]
    simp only [Outcome.ok_bind, counts, aggregates, existences, filters]

theorem settle_congr (agree : Agree config depth subquery other) (ready : List Deferred)
    (h : q.Placed config depth correlated) : q.settle subquery ready = q.settle other ready := by
  induction ready generalizing q with
  | nil => rfl
  | cons deferred rest ih =>
    unfold settle
    dsimp only
    cases known : q.scope with
    | error error => rfl
    | ok scope =>
      have compiles : RelatedExistence.compile subquery scope deferred.existence =
          RelatedExistence.compile other scope deferred.existence := by
        unfold RelatedExistence.compile
        rw [agree.scope h known]
      rw [Outcome.ok_bind, Outcome.ok_bind, compiles]
      cases RelatedExistence.compile other scope deferred.existence >>=
          q.statement.fill deferred.slot with
      | error error => rfl
      | ok statement => exact ih ⟨h.configured, h.depth, h.correlated⟩

theorem applyUsing_congr (agree : Agree config depth subquery other) (step : Step)
    (h : q.Placed config depth correlated) :
    q.applyUsing subquery step = q.applyUsing other step := by
  cases step with
  | attempt step => rw [Query.applyUsing, Query.applyUsing, applyUsing_congr agree step h]
  | closeGroup =>
    change q.closeGroup subquery = q.closeGroup other
    by_cases opened : q.statement.openGroups = 0
    · rw [closeGroup_of_closed opened, closeGroup_of_closed opened]
    · have outer : q.outer.Placed config depth correlated := ⟨h.configured, h.depth, h.correlated⟩
      rw [closeGroup_eq opened, closeGroup_eq opened, settle_congr agree q.inner outer]
  | filterExistsNow connective edge =>
    unfold Query.applyUsing filterExistsNow
    congr 1
    refine bind_congr fun link => ?_
    cases known : q.scope with
    | error error => rfl
    | ok scope =>
      unfold RelatedExistence.compile
      rw [Outcome.ok_bind, Outcome.ok_bind, agree.scope h known]
  | _ => rfl

theorem refineUsing_congr (agree : Agree config depth subquery other) (steps : Refinement)
    (h : q.Placed config depth correlated) :
    q.refineUsing subquery steps = q.refineUsing other steps := by
  induction steps generalizing q with
  | nil => rfl
  | cons step rest ih =>
    have placed : (q.applyUsing other step).1.Placed config depth correlated := h.applyUsing step
    unfold Query.refineUsing
    rw [applyUsing_congr agree step h]
    rcases went : q.applyUsing other step with ⟨next, _ | _⟩
    · rw [went] at placed
      exact ih placed
    · rfl

end Query

theorem agree_within {config : Config} {depth levels : Nat}
    (left : config.maxDepth - depth = levels) :
    Query.Agree config depth (compileSubqueryWithin levels) compileSubquery := by
  rintro scope rfl rfl
  unfold compileSubquery
  rw [left]

def Scope.below (scope : Scope) (link : Link Refinement) (base : String) : Query :=
  Query.below scope.config
    { name := link.target, label := some (base ++ "_s" ++ toString (scope.depth + 1)) }
    (scope.depth + 1) true

def Scope.select (scope : Scope) (link : Link Refinement) (base : String) (s : Statement) :
    Except Error (Subquery Condition) := do
  let label := base ++ "_s" ++ toString (scope.depth + 1)
  if let some clause := s.shapingClause? then
    throw (.compile (.shapingClause clause link.name))
  return { label, source := ← s.source, keys := link.keyMatches label scope.anchor,
           refinement := ← s.filter }

theorem Scope.placed_below (scope : Scope) (link : Link Refinement) (base : String) :
    (scope.below link base).Placed scope.config (scope.depth + 1) true := ⟨rfl, rfl, rfl⟩

variable {scope : Scope}

theorem compileSubquery_of_full (full : scope.config.maxDepth ≤ scope.depth)
    (link : Link Refinement) (base : String) :
    compileSubquery scope link base = .error (.tooDeep scope.config.maxDepth) := by
  unfold compileSubquery
  rw [Nat.sub_eq_zero_of_le full]
  rfl

/-- A subquery is a query of its own, one level down: refined, and compiled. -/
theorem compileSubquery_of_room (room : scope.depth < scope.config.maxDepth)
    (link : Link Refinement) (base : String) :
    compileSubquery scope link base =
      (scope.below link base).refine (link.refinement.getD []) >>= fun rows =>
        rows.compile >>= fun assembly => scope.select link base assembly.statement := by
  obtain ⟨levels, left⟩ := Nat.exists_eq_succ_of_ne_zero (Nat.sub_ne_zero_of_lt room)
  have agree : Query.Agree scope.config (scope.depth + 1) (compileSubqueryWithin levels)
      compileSubquery := agree_within (by omega)
  have placed := scope.placed_below link base
  unfold compileSubquery
  rw [left]
  change (scope.below link base).refineUsing (compileSubqueryWithin levels) _ >>= _ = _
  rw [Query.refineUsing_congr agree _ placed, Query.refine]
  cases ran : (scope.below link base).refineUsing compileSubquery (link.refinement.getD []) with
  | error error => rfl
  | ok rows =>
    rw [Outcome.ok_bind, Outcome.ok_bind, Query.assemble_congr agree (placed.refineUsing ran)]
    rfl

end RelationQuery
